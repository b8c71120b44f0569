import VecnoIndexer.System.Origins

/-!
# Relations and what they relate

There are no foreign keys.  The transaction processor relates a transaction to a block after it
has inserted the rows of the transaction, and the block processor a block to its parents after
the block.  So wherever a process dies, no relation is left without the rows it refers to.
-/

namespace VecnoIndexer

open VecnoIndexer.Sql
open VecnoIndexer.Collections
open VecnoIndexer.Transition

/-! ## Relations -/

namespace Received

variable (cliArgs : CliArgs) (start : Db) (received : Received)

/-- The rows of a transaction that was received with the id of the relation are stored. -/
def Completes (db : Db) (relation : BlockTransaction) : Prop :=
  ∃ transaction ∈ received.transactions,
    transaction.transactionId = some relation.transactionId ∧
      Stored cliArgs db transaction relation.transactionId

/-- Relations that were not there at the start refer to what is stored. -/
structure Links (db : Db) : Prop where
  parents : ∀ row ∈ db.blockParent, row ∈ start.blockParent ∨
    (cliArgs.isDisabled .blocksTable = false → db.blocks.HasKey row.blockHash)
  transactions : ∀ row ∈ db.blocksTransactions, row ∈ start.blocksTransactions ∨
    received.Completes cliArgs db row

variable {cliArgs start received} {db after : Db}

theorem Completes.retained {relation : BlockTransaction}
    (completes : received.Completes cliArgs db relation) (retains : Retains db after) :
    received.Completes cliArgs after relation := by
  obtain ⟨transaction, isReceived, idEq, stored⟩ := completes
  exact ⟨transaction, isReceived, idEq, retains.stored stored⟩

theorem links_self : received.Links cliArgs start start :=
  ⟨fun _ => Or.inl, fun _ => Or.inl⟩

/-- New relations have to refer to stored rows; the old ones do as long as rows are retained. -/
theorem Links.of_retains (links : received.Links cliArgs start db) (retains : Retains db after)
    (parents : ∀ row ∈ after.blockParent, row ∈ db.blockParent ∨
      (cliArgs.isDisabled .blocksTable = false → after.blocks.HasKey row.blockHash))
    (transactions : ∀ row ∈ after.blocksTransactions, row ∈ db.blocksTransactions ∨
      received.Completes cliArgs after row) : received.Links cliArgs start after where
  parents row stored := by
    rcases parents row stored with before | hasBlock
    · exact (links.parents row before).imp_right fun hasBlock enabled =>
        retains.blocks _ (hasBlock enabled)
    · exact Or.inr hasBlock
  transactions row stored := by
    rcases transactions row stored with before | completes
    · exact (links.transactions row before).imp_right fun completes => completes.retained retains
    · exact Or.inr completes

/-- No relation is added. -/
theorem Links.of_same (links : received.Links cliArgs start db) (retains : Retains db after)
    (blockParent : after.blockParent = db.blockParent)
    (blocksTransactions : after.blocksTransactions = db.blocksTransactions) :
    received.Links cliArgs start after :=
  links.of_retains retains (fun _ stored => Or.inl (blockParent ▸ stored))
    fun _ stored => Or.inl (blocksTransactions ▸ stored)

theorem Links.of_leaves (links : received.Links cliArgs start db) {insert : InsertStatement}
    (leaves : InsertStatement.Leaves db after insert)
    (completes : ∀ row, insert.Inserts db (.relation row) → received.Completes cliArgs after row) :
    received.Links cliArgs start after := by
  refine links.of_retains leaves.retains
    (fun _ stored => Or.inl (leaves.sameOthers.blockParent ▸ stored)) fun row stored => ?_
  have isStored : after.Stores (.relation row) := stored
  exact (leaves.stores isStored).imp_right (completes row)

end Received

/-! ## A batch of the transaction processor -/

/-- It does not need the rows of the other statements of its batch. -/
def InsertStatement.Precedes : InsertStatement → Prop
  | .blocksTransactions _ | .addressesFromInputs _ _ | .scriptsFromInputs _ _ => False
  | .transactions _ | .inputs _ _ | .outputs _ | .addresses _ | .scripts _ => True

namespace TransactionLoop

variable {cliArgs : CliArgs} {start db middle : Db} {received : Received} {loop : TransactionLoop}
  {popped mapped : List RpcTransaction} {txInputs : List TransactionInput}
  {firsts : List InsertStatement} {script rest : Script} {total : ℕ}

/-- The rows of the transactions come first. -/
theorem precedes_of_mem_firstInserts {insert : InsertStatement}
    (member : insert ∈ loop.firstInserts cliArgs txInputs) : insert.Precedes := by
  simp only [firstInserts, List.mem_append] at member
  rcases member with ((inTransactions | inAddresses) | inInputs) | inOutputs
  · unfold transactionInserts at inTransactions
    split_ifs at inTransactions
    · contradiction
    · obtain ⟨_, _, rfl⟩ := List.mem_map.mp inTransactions
      trivial
  · unfold outputAddressInserts at inAddresses
    split_ifs at inAddresses
    · obtain ⟨_, _, rfl⟩ := List.mem_map.mp inAddresses
      trivial
    · obtain ⟨_, _, rfl⟩ := List.mem_map.mp inAddresses
      trivial
    · contradiction
  · unfold inputInserts at inInputs
    split_ifs at inInputs
    · contradiction
    · obtain ⟨_, _, rfl⟩ := List.mem_map.mp inInputs
      trivial
  · unfold outputInserts at inOutputs
    split_ifs at inOutputs
    · contradiction
    · obtain ⟨_, _, rfl⟩ := List.mem_map.mp inOutputs
      trivial

theorem not_precedes_of_mem_secondInserts {insert : InsertStatement}
    (member : insert ∈ loop.secondInserts cliArgs) : ¬ insert.Precedes := by
  rcases List.mem_append.mp member with inRelations | inSpent
  · unfold blockTransactionInserts at inRelations
    split_ifs at inRelations
    · contradiction
    · obtain ⟨_, _, rfl⟩ := List.mem_map.mp inRelations
      exact id
  · unfold inputAddressInserts at inSpent
    simp only at inSpent
    split_ifs at inSpent
    · obtain ⟨_, _, rfl⟩ := List.mem_map.mp inSpent
      exact id
    · obtain ⟨_, _, rfl⟩ := List.mem_map.mp inSpent
      exact id
    · contradiction

/-- The first statements give a table the rows held for it. -/
theorem TracksTable.hasKey_of_firsts {α β κ : Type} {rowKey : α → Option κ} {project : α → β}
    {table : IndexedTable cliArgs rowKey project} {given : List α}
    (tracked : TracksTable start db loop mapped table given)
    (precede : ∀ insert row, row ∈ table.listed insert → insert.Precedes)
    (resolved : loop.resolvedInputs cliArgs = some txInputs)
    (same : ∀ insert, insert ∈ firsts ↔ insert ∈ loop.firstInserts cliArgs txInputs)
    (ran : Session.run (InsertStatement.executeAll firsts) db script = .done total middle rest)
    {transaction : RpcTransaction} (isMapped : transaction ∈ mapped) {rows : TransactionRows}
    (rowsEq : loop.rowsOf cliArgs transaction = some rows) {row : α}
    (rowMem : row ∈ table.mapped rows) {k : κ} (keyEq : rowKey row = some k) :
    (table.place.get middle).HasKey k := by
  have filled := table.filled_of_executeAll ran
  obtain ⟨other, otherMem, sameKey⟩ := tracked.taken transaction isMapped rows rowsEq row rowMem
  have otherKey := sameKey.trans keyEq
  rcases List.mem_append.mp otherMem with isGiven | isPending
  · exact filled.hasKey (tracked.filled.present other isGiven k otherKey)
  · obtain ⟨listed, isListed, like⟩ := (table.batch loop txInputs resolved).back other isPending
    obtain ⟨insert, insertMem, listedMem⟩ := List.mem_flatMap.mp isListed
    have isFirst : insert ∈ firsts := by
      rw [same]
      refine (List.mem_append.mp insertMem).resolve_right fun isSecond => ?_
      exact not_precedes_of_mem_secondInserts isSecond (precede insert listed listedMem)
    apply filled.present listed (List.mem_flatMap.mpr ⟨insert, isFirst, listedMem⟩)
    exact (table.keyed listed other like).trans otherKey

/-- Once the first statements are executed the mapped transactions are stored. -/
theorem Tracks.stored_of_firsts (tracks : Tracks cliArgs start db loop popped mapped)
    (resolved : loop.resolvedInputs cliArgs = some txInputs)
    (same : ∀ insert, insert ∈ firsts ↔ insert ∈ loop.firstInserts cliArgs txInputs)
    (ran : Session.run (InsertStatement.executeAll firsts) db script = .done total middle rest)
    {transaction : RpcTransaction} (isMapped : transaction ∈ mapped) {transactionId : Hash}
    (idEq : transaction.transactionId = some transactionId) :
    Stored cliArgs middle transaction transactionId := by
  obtain ⟨rows, rowsEq⟩ := tracks.rows_of_mapped transaction isMapped
  have mappedRows := rowsEq
  simp only [rowsOf, Option.bind_eq_bind, Option.bind_eq_some_iff] at mappedRows
  obtain ⟨key, _, mappedRows⟩ := mappedRows
  have taken {α β κ : Type} {rowKey : α → Option κ} {project : α → β}
      (table : IndexedTable cliArgs rowKey project)
      (precede : ∀ insert row, row ∈ table.listed insert → insert.Precedes) :
      ∀ row ∈ table.mapped rows, ∀ k, rowKey row = some k → (table.place.get middle).HasKey k := by
    obtain ⟨given, tracked⟩ := tracks.tables table
    exact fun row rowMem k =>
      tracked.hasKey_of_firsts precede resolved same ran isMapped rowsEq rowMem
  refine KeysTaken.stored ⟨taken (.transactions cliArgs) ?_, taken (.inputs cliArgs) ?_,
    taken (.outputs cliArgs) ?_, taken (.addresses cliArgs) ?_, taken (.scripts cliArgs) ?_⟩ idEq
      mappedRows
  all_goals
    intro insert row listed
    cases insert <;> trivial

/-- Then every relation of the batch is to a transaction that is stored. -/
theorem Tracks.completes_of_firsts (tracks : Tracks cliArgs start db loop popped mapped)
    (sent : ∀ transaction ∈ popped, transaction ∈ received.transactions)
    (resolved : loop.resolvedInputs cliArgs = some txInputs)
    (same : ∀ insert, insert ∈ firsts ↔ insert ∈ loop.firstInserts cliArgs txInputs)
    (ran : Session.run (InsertStatement.executeAll firsts) db script = .done total middle rest)
    (enabled : cliArgs.isDisabled .blocksTransactionsTable = false) {relation : BlockTransaction}
    (isPending : relation ∈ loop.blockTx) : received.Completes cliArgs middle relation := by
  obtain ⟨given, tracked⟩ := tracks.relations
  obtain ⟨_, transaction, isPopped, relationEq⟩ := (tracked.same relation).mp
    (List.mem_append_right given (IndexedTable.mem_rowsIf.mpr ⟨by rw [enabled]; rfl, isPending⟩))
  obtain ⟨transactionId, idEq, other, isMapped, otherId⟩ := tracks.known transaction isPopped
  have sameId : transactionId = relation.transactionId := by
    obtain ⟨verboseData, hasVerbose, rfl⟩ := Option.map_eq_some_iff.mp idEq
    simp only [VecnoDbMapper.mapBlockTransaction, hasVerbose, Option.bind_eq_bind,
      Option.bind_some] at relationEq
    cases relationEq
    rfl
  subst sameId
  exact ⟨other, sent other (tracks.popped_of_mapped other isMapped), otherId,
    tracks.stored_of_firsts resolved same ran isMapped otherId⟩

/-- A batch links what it relates, at whatever statement it ends. -/
theorem Tracks.links_insertBatch (tracks : Tracks cliArgs start db loop popped mapped)
    (sent : ∀ transaction ∈ popped, transaction ∈ received.transactions) {first : Db}
    (links : received.Links cliArgs first db) (input : TransactionsInput) (script : Script) :
    received.Links cliArgs first
      (Session.run (loop.insertBatch cliArgs input) db script).state := by
  have keepsFirst (inserts : List InsertStatement) (precede : ∀ insert ∈ inserts, insert.Precedes) :
      (InsertStatement.executeAll inserts).Keeps (received.Links cliArgs first) := by
    refine InsertStatement.keeps_executeAll fun insert member db after leaves links => ?_
    refine links.of_leaves leaves fun row inserted => ?_
    have precedes := precede insert member
    cases insert <;> contradiction
  unfold TransactionLoop.insertBatch
  cases resolved : loop.resolvedInputs cliArgs with
  | none =>
      refine Session.Keeps.bind (keepsFirst _ fun insert member => ?_)
        (fun _ => Session.keeps_die _) db script links
      have isFirst : insert ∈ loop.firstInserts cliArgs [] :=
        List.mem_append_left _ (List.mem_append_left _ ((Reordering.mem_order _).mp member))
      exact precedes_of_mem_firstInserts isFirst
  | some txInputs =>
      have same := fun insert => @Reordering.mem_order _ input.firstOrder
        (loop.firstInserts cliArgs txInputs) insert
      refine Session.property_of_run_bind (keepsFirst _ (fun insert member =>
        precedes_of_mem_firstInserts ((same insert).mp member)) db script links) ?_
      intro _ middle rest ran linksMiddle
      have keepsSecond : (InsertStatement.executeAll
          (input.secondOrder.order (loop.secondInserts cliArgs))).Keeps
            fun state => received.Links cliArgs first state ∧ Retains middle state := by
        refine InsertStatement.keeps_executeAll
          fun insert member db after leaves ⟨links, retains⟩ => ?_
        have retained := retains.trans leaves.retains
        refine ⟨links.of_leaves leaves fun row inserted => ?_, retained⟩
        have ofBatch := batchInsert_of_mem (List.mem_append_right
          (loop.firstInserts cliArgs txInputs) ((Reordering.mem_order _).mp member))
        cases ofBatch with
        | blocksTransactions enabled rows pending =>
            exact (tracks.completes_of_firsts sent resolved same ran enabled
              (pending row inserted)).retained retained
        | _ => contradiction
      have kept := keepsSecond.bind fun _ => Session.keeps_pure () _
      exact (kept middle rest ⟨linksMiddle, .refl middle⟩).1

/-- What holds between iterations: the relations are linked, and the transactions tracked were
received. -/
structure Linked (cliArgs : CliArgs) (start : Db) (received : Received) (loop : TransactionLoop)
    (db : Db) : Prop where
  links : received.Links cliArgs start db
  tracked : ∃ first popped mapped, Tracks cliArgs first db loop popped mapped ∧
    ∀ transaction ∈ popped, transaction ∈ received.transactions

theorem links_invariant (cliArgs : CliArgs) (start : Db) (received : Received) :
    IterationInvariant cliArgs (· ∈ received.transactions) (Linked cliArgs start received)
      (received.Links cliArgs start) where
  leaves _ _ linked := linked.links
  notes loop db checkpointBlocks := by
    rintro ⟨links, first, popped, mapped, tracks, sent⟩
    exact ⟨links, first, popped, mapped, tracks.notify checkpointBlocks, sent⟩
  receives loop forgotten transaction isReceived := by
    rintro db script ⟨links, first, popped, mapped, tracks, sent⟩
    have frame (db : Db) (numbering : Numbering) (links : received.Links cliArgs start db) :
        received.Links cliArgs start (db.withNumbering numbering) :=
      links.of_same { Retains.refl db with } rfl rfl
    have left := keeps_receiveTransaction frame cliArgs loop forgotten transaction db script links
    refine ⟨left, fun after final rest ran => ?_⟩
    rw [ran] at left
    obtain ⟨nextMapped, nextTracks⟩ := tracks.receiveTransaction ran
    refine ⟨left, first, _, nextMapped, nextTracks, fun other isPopped => ?_⟩
    rcases List.mem_append.mp isPopped with before | now
    · exact sent other before
    · rw [List.mem_singleton.mp now]
      exact isReceived
  commits loop input := by
    rintro db script ⟨links, first, popped, mapped, tracks, sent⟩
    have left := tracks.links_insertBatch sent links input script
    refine ⟨left, fun _ final rest ran => ?_⟩
    rw [ran] at left
    exact ⟨left, first, popped, mapped, tracks.insertBatch ran input.commitNow, sent⟩

end TransactionLoop

/-! ## A batch of the block processor -/

namespace BlockLoop

variable {settings : Settings} {start db final : Db} {received : Received} {loop after : BlockLoop}

/-- The block of every parent relation held is held as well. -/
def Paired (cliArgs : CliArgs) (loop : BlockLoop) : Prop :=
  cliArgs.isDisabled .blocksTable = false →
    ∀ row ∈ loop.blocksParents, ∃ block ∈ loop.blocks, block.hash = row.blockHash

theorem paired_start (cliArgs : CliArgs) (now : ℕ) : (BlockLoop.start now).Paired cliArgs :=
  fun _ _ held => absurd held List.not_mem_nil

theorem Paired.receive {cliArgs : CliArgs} (paired : loop.Paired cliArgs) {block : RpcBlock}
    (taken : loop.receive cliArgs block = some after) : after.Paired cliArgs := by
  rw [BlockLoop.receive, Option.bind_eq_bind, Option.bind_eq_some_iff] at taken
  obtain ⟨rows, mapped, eq⟩ := taken
  cases eq
  intro enabled row held
  rcases List.mem_append.mp held with before | isNew
  · obtain ⟨earlier, isHeld, sameHash⟩ := paired enabled row before
    exact ⟨earlier, List.mem_append_left rows isHeld, sameHash⟩
  · rw [if_neg (by rw [enabled]; exact Bool.false_ne_true)] at mapped
    obtain ⟨mappedRow, rowEq, rfl⟩ := Option.map_eq_some_iff.mp mapped
    refine ⟨mappedRow, List.mem_append_right _ List.mem_cons_self, ?_⟩
    rw [VecnoDbMapper.mapBlock_hash _ rowEq]
    split_ifs at isNew
    · contradiction
    · unfold VecnoDbMapper.mapBlockParents at isNew
      split at isNew
      · contradiction
      · obtain ⟨_, _, rfl⟩ := List.mem_map.mp isNew
        rfl

/-- A batch inserts its blocks before their parents. -/
theorem Paired.keeps_insertBatch {cliArgs : CliArgs} (paired : loop.Paired cliArgs) :
    (loop.insertBatch cliArgs).Keeps (received.Links cliArgs start) := by
  intro db script links
  have keepsBlocks : (if cliArgs.isDisabled .blocksTable then pure 0
      else insertBlocks cliArgs.batchScale loop.blocks).Keeps (received.Links cliArgs start) := by
    split_ifs
    · exact Session.keeps_pure _ _
    · refine keeps_forPieces fun piece _ => keeps_insertInto fun db links => ?_
      exact links.of_same
        { Retains.refl db with blocks := fun _ => hasKey_insertAll_of_hasKey _ } rfl rfl
  refine Session.property_of_run_bind (keepsBlocks db script links) ?_
  intro _ middle rest ran linksMiddle
  have hasBlocks (enabled : cliArgs.isDisabled .blocksTable = false) :
      ∀ block ∈ loop.blocks, middle.blocks.HasKey block.hash := by
    rw [if_neg (by rw [enabled]; exact Bool.false_ne_true)] at ran
    rw [eq_of_done_insertBlocks ran]
    exact fun block isHeld => Table.hasKey_insertAll.mpr (Or.inr ⟨block, isHeld, rfl⟩)
  have keepsParents : (if cliArgs.isDisabled .blockParentTable then pure 0
      else insertBlockParents cliArgs.batchScale loop.blocksParents).Keeps
        fun state => received.Links cliArgs start state ∧ Retains middle state := by
    split_ifs
    · exact Session.keeps_pure _ _
    · refine keeps_forPieces fun piece isPiece => keeps_insertInto fun db ⟨links, retains⟩ => ?_
      have inserted : Retains db (blockParentTable.insert piece db) :=
        { Retains.refl db with blockParent := fun _ => hasKey_insertAll_of_hasKey _ }
      refine ⟨links.of_retains inserted (fun row stored => ?_) fun _ => Or.inl,
        retains.trans inserted⟩
      refine (Table.mem_or_mem_of_mem_insertAll stored).imp_right fun isNew enabled => ?_
      obtain ⟨block, isHeld, sameHash⟩ := paired enabled row (mem_of_mem_chunk isPiece isNew)
      exact sameHash ▸ retains.blocks _ (hasBlocks enabled block isHeld)
  have kept := keepsParents.bind fun _ => Session.keeps_pure () _
  exact (kept middle rest ⟨linksMiddle, .refl middle⟩).1

theorem Paired.keeps_commit (paired : loop.Paired settings.cliArgs) (synced : Bool)
    (input : BlockInput) :
    (loop.commit settings synced input).Keeps (received.Links settings.cliArgs start) := by
  refine paired.keeps_insertBatch.bind fun _ => ?_
  split_ifs
  · refine (keeps_clearAcceptances (fun db _ links => ?_) settings loop synced).bind
      fun _ => Session.keeps_pure _ _
    exact links.of_same { Retains.refl db with } rfl rfl
  · exact Session.keeps_die _

theorem Paired.keeps_iterate (paired : loop.Paired settings.cliArgs) (input : BlockInput) :
    (loop.iterate settings input).Keeps (received.Links settings.cliArgs start) :=
  keeps_iterate_of_commit fun _ _ _ taken => (paired.receive taken).keeps_commit _ input

theorem Paired.iterate (paired : loop.Paired settings.cliArgs) {input : BlockInput}
    {script rest : Script} {pushed : List CheckpointBlock}
    (ran : Session.run (loop.iterate settings input) db script = .done (after, pushed) final rest) :
    after.Paired settings.cliArgs := by
  rcases done_iterate ran with ⟨_, rfl, _⟩ | ⟨blockData, taken, _, isTaken, outcome⟩
  · exact paired
  · rcases outcome with ⟨rfl, _⟩ | ⟨_, _, committed⟩
    · exact paired.receive isTaken
    · obtain ⟨_, _, _, rfl⟩ := done_commit committed
      exact fun _ _ held => absurd held List.not_mem_nil

end BlockLoop

/-! ## One life -/

namespace System

variable {settings : Settings} {start initial : Db} {received : Received} {system : System}

theorem Explained.sent_transactions (explained : system.Explained settings.cliArgs start received)
    (channels : system.Channels) :
    ∀ transaction ∈ system.indexing.transactions, transaction ∈ received.transactions := by
  intro transaction isPopped
  obtain ⟨data, popped, among⟩ := List.mem_flatMap.mp isPopped
  obtain ⟨block, isReceived, rfl⟩ := explained.fetched.txs data
    (channels.txs ▸ List.mem_append_left _ popped)
  exact List.mem_flatMap.mpr ⟨block, isReceived, among⟩

/-- The statements of a turn link what they relate. -/
theorem Sound.links_dbAfter (sound : system.Sound settings initial)
    (explained : system.Explained settings.cliArgs start received)
    (paired : ∀ loop, system.tasks.blockProcessor.locals = some loop →
      loop.Paired settings.cliArgs)
    (alive : system.tasks.ended = false)
    (links : received.Links settings.cliArgs start system.db) (event : SystemEvent) :
    received.Links settings.cliArgs start (system.dbAfter settings event) := by
  have channels := sound.channels alive
  cases event with
  | signal => exact links
  | fetch input => exact links
  | blocks input script =>
      simp only [dbAfter]
      cases processor : system.tasks.blockProcessor with
      | looping loop =>
          simp only [Task.leaves]
          split
          · exact links
          · exact (paired loop (congrArg Task.locals processor)).keeps_iterate _ _ _ links
      | _ => exact links
  | transactions input script =>
      simp only [dbAfter]
      cases processor : system.tasks.transactionProcessor with
      | looping loop =>
          have running : system.indexing.transactionLoop = some loop := by
            simp [indexing, running, alive, processor, Task.locals]
          obtain ⟨⟨mapped, tracks⟩, _⟩ := sound.indexed.sides.2.tracked loop running
          simp only [Task.leaves]
          split
          · exact links
          · exact ((TransactionLoop.links_invariant settings.cliArgs start received).iterate loop
              { input with popped := system.tasks.txsQueue.pop.1 }
              (fun _ => explained.pops_transactions channels) system.db script
              ⟨links, initial, _, mapped, tracks, explained.sent_transactions channels⟩).1
      | starting =>
          simp only [Task.leaves, state_transactionLoop_start]
          exact links
      | _ => exact links
  | virtualChain input script =>
      have same : SameIndexed system.db (system.dbAfter settings (.virtualChain input script)) :=
        sameIndexed_of_virtualChain settings input script
      exact links.of_same (.of_same same) same.blockParent same.blocksTransactions
  | checkpoints input hashOrder script =>
      have same : SameIndexed system.db
          (system.dbAfter settings (.checkpoints input hashOrder script)) :=
        sameIndexed_of_checkpoints settings input hashOrder script
      exact links.of_same (.of_same same) same.blockParent same.blocksTransactions

theorem paired_step (paired : ∀ loop, system.tasks.blockProcessor.locals = some loop →
      loop.Paired settings.cliArgs) {event : SystemEvent} {next : System}
    (stepped : Stepped settings system event next) :
    next.tasks.ended = false → ∀ loop, next.tasks.blockProcessor.locals = some loop →
      loop.Paired settings.cliArgs := by
  intro lives loop running
  cases stepped with
  | dies ended => exact absurd (ended.symm.trans lives) (by decide)
  | fetch alive input lives =>
      obtain ⟨blocks, _⟩ := fetch_processors system.tasks input
      exact paired loop ((congrArg Task.locals blocks).symm.trans running)
  | blocks alive turned =>
      rcases (Task.turned_of_turn turned).effect with quiet | ⟨_, started, isStart, rfl⟩ |
        ⟨_, _, _, rfl⟩ | ⟨_, before, final, pushed, looping, iterated, rfl⟩
      · exact paired loop (quiet.locals.symm.trans running)
      · cases isStart
        cases running
        exact BlockLoop.paired_start _ _
      · contradiction
      · obtain ⟨db, rest, ran⟩ := exists_of_returnedValue iterated
        have isFinal : final = loop :=
          Option.some.inj ((Task.locals_after final pushed).symm.trans running)
        exact isFinal ▸ (paired before (congrArg Task.locals looping)).iterate ran
  | _ => exact paired loop running

end System

/-! ## Any number of lives -/

namespace Deployment

variable {cliArgs : CliArgs} {origin : Db} {received : Received} {deployment : Deployment}

/-- The invariant. -/
structure Linked (cliArgs : CliArgs) (origin : Db) (received : Received)
    (deployment : Deployment) : Prop where
  explained : deployment.Explained cliArgs origin received
  links : received.Links cliArgs origin deployment.system.db
  paired : deployment.system.tasks.ended = false → ∀ loop,
    deployment.system.tasks.blockProcessor.locals = some loop → loop.Paired cliArgs

theorem Linked.step (linked : deployment.Linked cliArgs origin received) {event : DeploymentEvent}
    (includes : received.Includes cliArgs event) :
    (deployment.step event).Linked cliArgs origin received := by
  have explained := linked.explained.step includes
  obtain ⟨⟨rfl, _, live⟩, links, paired⟩ := linked
  cases event with
  | turn event =>
      cases ended : deployment.system.tasks.ended with
      | true =>
          have same : deployment.step (.turn event) = deployment := by
            simp only [step, System.step_of_ended ended]
          rw [same] at explained ⊢
          exact ⟨explained, links, paired⟩
      | false =>
          obtain ⟨⟨initial, sound⟩, held⟩ := live ended
          refine ⟨explained, ?_, ?_⟩
          · have linksAfter := sound.links_dbAfter held (paired ended) ended links event
            rw [← System.db_step ended event] at linksAfter
            exact linksAfter
          · exact System.paired_step (paired ended) (System.stepped _ _ event)
  | start env input script =>
      have frame : ImportFrame deployment.settings.cliArgs env input.utxos
          (received.Links deployment.settings.cliArgs origin) := by
        refine ⟨fun db balances links => ?_, fun db acceptances links => ?_,
          fun db pairs _ links => ?_⟩
        · exact links.of_same { Retains.refl db with } rfl rfl
        · exact links.of_same { Retains.refl db with } rfl rfl
        · exact links.of_same
            { Retains.refl db with outputs := fun _ => hasKey_insertAll_of_hasKey _ } rfl rfl
      have linksAfter : received.Links deployment.settings.cliArgs origin
          (deployment.startup env input script).state :=
        frame.startProcessing (fun blockHash db links =>
          links.of_same { Retains.refl db with } rfl rfl) _ _ links
      rcases step_start_cases deployment env input script with ⟨startup, db, rest, started, eq⟩ | eq
      · rw [started] at linksAfter
        rw [eq] at explained ⊢
        refine ⟨explained, linksAfter, ?_⟩
        rintro _ _ ⟨⟩
      · rw [eq] at explained ⊢
        refine ⟨explained, linksAfter, fun lives => ?_⟩
        contradiction

/-- Over any number of crashes and restarts no relation is stored without the rows it refers
to. -/
theorem links_of_run (settings : Settings) (startup : Startup) (db : Db)
    (events : List DeploymentEvent) :
    (Received.during settings.cliArgs events).Links settings.cliArgs db
      (runFrom step (spawned settings startup db) events).system.db := by
  have spawned : (spawned settings startup db).Linked settings.cliArgs db
      (.during settings.cliArgs events) := by
    refine ⟨explained_spawned startup Received.explains_self, Received.links_self, ?_⟩
    rintro _ _ ⟨⟩
  exact (invariant_of_along (fun _ _ linked includes => linked.step includes) spawned
    (along_of_forall _ fun _ => Received.includes_during settings.cliArgs)).links

end Deployment

end VecnoIndexer
