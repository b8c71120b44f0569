import VecnoIndexer.Transactions.Stored

/-!
# Blocks and transactions side by side

The block processor and the transaction processor commit their batches independently and
then notify the checkpoint processor.  With every notification the world here keeps the
database of its push.
-/

namespace VecnoIndexer

open VecnoIndexer.Sql
open VecnoIndexer.Collections
open VecnoIndexer.Transition

/-- A notification with the database when it is pushed. -/
structure PushedNotification where
  notification : CheckpointBlock
  db : Db

/-- The database, the two processors while the process is alive, what each of them has
popped and what it has pushed, in order. -/
structure IndexingWorld where
  db : Db
  blockLoop : Option BlockLoop
  transactionLoop : Option TransactionLoop
  poppedBlocks : List BlockData
  poppedTransactions : List TransactionData
  blocksNotified : List PushedNotification
  transactionsNotified : List PushedNotification

/-- A step of some component. -/
inductive IndexingEvent where
  /-- An iteration of the block processor. -/
  | blocks (input : BlockInput) (script : Script)
  /-- An iteration of the transaction processor. -/
  | transactions (input : TransactionsInput) (script : Script)
  /-- A step of a component that writes none of their tables. -/
  | other (change : Db → Db)

/-- The tables of the two processors are as they were. -/
def Db.restore (db changed : Db) : Db :=
  { changed with
    blocks := db.blocks
    blockParent := db.blockParent
    subnetworks := db.subnetworks
    subnetworksNextId := db.subnetworksNextId
    transactions := db.transactions
    blocksTransactions := db.blocksTransactions
    transactionsInputs := db.transactionsInputs
    transactionsOutputs := db.transactionsOutputs
    addressesTransactions := db.addressesTransactions
    scriptsTransactions := db.scriptsTransactions }

theorem sameTransactions_restore (db changed : Db) : SameTransactions db (db.restore changed) :=
  ⟨rfl, rfl, rfl, rfl, rfl, rfl⟩

namespace IndexingWorld

/-- Both processors before their first iteration, the subnetworks loaded. -/
def start (db : Db) (now : ℕ) : IndexingWorld where
  db
  blockLoop := some (.start now)
  transactionLoop := some (.loaded now db.subnetworks.rows)
  poppedBlocks := []
  poppedTransactions := []
  blocksNotified := []
  transactionsNotified := []

/-- An error or a panic ends the process. -/
def dead (world : IndexingWorld) (db : Db) : IndexingWorld :=
  { world with
    db
    blockLoop := none
    transactionLoop := none }

def afterBlocks (world : IndexingWorld) (input : BlockInput) (after : BlockLoop)
    (pushed : List CheckpointBlock) (db : Db) : IndexingWorld :=
  { world with
    db
    blockLoop := some after
    poppedBlocks := world.poppedBlocks ++ input.popped.toList
    blocksNotified := world.blocksNotified ++ pushed.map fun notification => ⟨notification, db⟩ }

def afterTransactions (world : IndexingWorld) (input : TransactionsInput) (after : TransactionLoop)
    (pushed : List CheckpointBlock) (db : Db) : IndexingWorld :=
  { world with
    db
    transactionLoop := some after
    poppedTransactions := world.poppedTransactions ++ input.popped.toList
    transactionsNotified :=
      world.transactionsNotified ++ pushed.map fun notification => ⟨notification, db⟩ }

def step (settings : Settings) (world : IndexingWorld) : IndexingEvent → IndexingWorld
  | .blocks input script =>
      match world.blockLoop with
      | none => world
      | some loop =>
          match Session.run (loop.iterate settings input) world.db script with
          | .done (after, pushed) db _ => world.afterBlocks input after pushed db
          | .failed _ db _ => world.dead db
          | .killed db => world.dead db
  | .transactions input script =>
      match world.transactionLoop with
      | none => world
      | some loop =>
          match Session.run (loop.iterate settings.cliArgs input) world.db script with
          | .done (after, pushed) db _ => world.afterTransactions input after pushed db
          | .failed _ db _ => world.dead db
          | .killed db => world.dead db
  | .other change => { world with db := world.db.restore (change world.db) }

/-- What a step can do: nothing, an iteration that returns or that ends the process, or
what another component does. -/
inductive Stepped (settings : Settings) (world : IndexingWorld) : IndexingWorld → Prop where
  | idle : Stepped settings world world
  | blocks {loop after : BlockLoop} {input : BlockInput} {pushed : List CheckpointBlock} {db : Db}
      {script rest : Script} (running : world.blockLoop = some loop)
      (ran : Session.run (loop.iterate settings input) world.db script =
        .done (after, pushed) db rest) :
      Stepped settings world (world.afterBlocks input after pushed db)
  | blocksDie {loop : BlockLoop} {input : BlockInput} {script : Script}
      (running : world.blockLoop = some loop) :
      Stepped settings world
        (world.dead (Session.run (loop.iterate settings input) world.db script).state)
  | transactions {loop after : TransactionLoop} {input : TransactionsInput}
      {pushed : List CheckpointBlock} {db : Db} {script rest : Script}
      (running : world.transactionLoop = some loop)
      (ran : Session.run (loop.iterate settings.cliArgs input) world.db script =
        .done (after, pushed) db rest) :
      Stepped settings world (world.afterTransactions input after pushed db)
  | transactionsDie {loop : TransactionLoop} {input : TransactionsInput} {script : Script}
      (running : world.transactionLoop = some loop) :
      Stepped settings world
        (world.dead (Session.run (loop.iterate settings.cliArgs input) world.db script).state)
  | other (change : Db → Db) :
      Stepped settings world { world with db := world.db.restore (change world.db) }

theorem stepped (settings : Settings) (world : IndexingWorld) (event : IndexingEvent) :
    world.Stepped settings (world.step settings event) := by
  cases event with
  | blocks input script =>
      simp only [step]
      cases running : world.blockLoop with
      | none => exact .idle
      | some loop =>
          have died := @Stepped.blocksDie settings world loop input script running
          simp only
          cases ran : Session.run (loop.iterate settings input) world.db script with
          | done result db rest => exact .blocks running ran
          | failed error db rest =>
              rw [ran] at died
              exact died
          | killed db =>
              rw [ran] at died
              exact died
  | transactions input script =>
      simp only [step]
      cases running : world.transactionLoop with
      | none => exact .idle
      | some loop =>
          have died := @Stepped.transactionsDie settings world loop input script running
          simp only
          cases ran : Session.run (loop.iterate settings.cliArgs input) world.db script with
          | done result db rest => exact .transactions running ran
          | failed error db rest =>
              rw [ran] at died
              exact died
          | killed db =>
              rw [ran] at died
              exact died
  | other change => exact .other change

/-- The transactions popped so far. -/
def transactions (world : IndexingWorld) : List RpcTransaction :=
  world.poppedTransactions.flatMap TransactionData.transactions

end IndexingWorld

/-! ## An iteration of the transaction processor -/

namespace TransactionLoop

variable {cliArgs : CliArgs} {loop after received : TransactionLoop} {input : TransactionsInput}
  {start db final : Db} {script rest : Script} {pushed : List CheckpointBlock}
  {popped mapped : List RpcTransaction}

/-- An iteration that returns has popped nothing, or taken the block into the batch, and
perhaps committed it. -/
theorem done_iterate
    (ran : Session.run (loop.iterate cliArgs input) db script = .done (after, pushed) final rest) :
    (input.popped = none ∧ after = loop ∧ pushed = [] ∧ final = db) ∨
    ∃ data received middle left, input.popped = some data ∧
      Session.run (loop.receive cliArgs input.forgotten data) db script =
        .done received middle left ∧
      ((after = received ∧ pushed = [] ∧ final = middle) ∨
        (pushed = received.checkpointBlocks ∧ ∃ last,
          Session.run (received.commit cliArgs input) middle left = .done after final last)) := by
  unfold iterate at ran
  cases popped : input.popped with
  | none =>
      rw [popped] at ran
      cases ran
      exact Or.inl ⟨rfl, rfl, rfl, rfl⟩
  | some data =>
      rw [popped] at ran
      obtain ⟨received, middle, left, receiveRan, ran⟩ := Session.done_of_run_bind ran
      refine Or.inr ⟨data, received, middle, left, rfl, receiveRan, ?_⟩
      split at ran
      · obtain ⟨committed, _, _, commitRan, ran⟩ := Session.done_of_run_bind ran
        cases ran
        exact Or.inr ⟨rfl, rest, commitRan⟩
      · cases ran
        exact Or.inl ⟨rfl, rfl, rfl⟩

theorem checkpointBlocks_receiveTransaction {forgotten : Hash → Bool} {transaction : RpcTransaction}
    (ran : Session.run (loop.receiveTransaction cliArgs forgotten transaction) db script =
      .done received final rest) : received.checkpointBlocks = loop.checkpointBlocks := by
  obtain ⟨key, numbering, _, _, collected⟩ := done_receiveTransaction ran
  obtain ⟨_, _, _, _, ⟨_, rfl⟩ | ⟨_, _, rfl⟩⟩ := collect_cases collected
  · rfl
  · rfl

theorem checkpointBlocks_receiveAll {forgotten : ℕ → Hash → Bool}
    {transactions : List RpcTransaction}
    (ran : Session.run (loop.receiveAll cliArgs forgotten transactions) db script =
      .done received final rest) : received.checkpointBlocks = loop.checkpointBlocks := by
  induction transactions generalizing loop forgotten db script with
  | nil =>
      cases ran
      rfl
  | cons transaction later ih =>
      obtain ⟨next, middle, left, firstRan, ran⟩ := Session.done_of_run_bind ran
      exact (ih ran).trans (checkpointBlocks_receiveTransaction firstRan)

/-- Taking transactions into the batch only adds subnetworks. -/
theorem exists_withNumbering_of_receiveAll {forgotten : ℕ → Hash → Bool}
    {transactions : List RpcTransaction}
    (ran : Session.run (loop.receiveAll cliArgs forgotten transactions) db script =
      .done received final rest) : ∃ numbering, final = db.withNumbering numbering := by
  induction transactions generalizing loop forgotten db script with
  | nil =>
      cases ran
      exact ⟨⟨[], final.subnetworks, final.subnetworksNextId⟩, rfl⟩
  | cons transaction later ih =>
      obtain ⟨next, middle, left, firstRan, ran⟩ := Session.done_of_run_bind ran
      obtain ⟨_, numbering, _, rfl, _⟩ := done_receiveTransaction firstRan
      obtain ⟨lastNumbering, rfl⟩ := ih ran
      exact ⟨lastNumbering, rfl⟩

theorem checkpointBlocks_receive {forgotten : ℕ → Hash → Bool} {data : TransactionData}
    (ran : Session.run (loop.receive cliArgs forgotten data) db script =
      .done received final rest) :
    received.checkpointBlocks = loop.checkpointBlocks ++ [notification data] :=
  checkpointBlocks_receiveAll ran

theorem Tracks.notify (tracks : Tracks cliArgs start db loop popped mapped)
    (checkpointBlocks : List CheckpointBlock) :
    Tracks cliArgs start db { loop with checkpointBlocks } popped mapped where
  popped_of_mapped := tracks.popped_of_mapped
  rows_of_mapped := tracks.rows_of_mapped
  known := tracks.known
  cached := tracks.cached
  settled := tracks.settled
  relations := by
    obtain ⟨given, tracked⟩ := tracks.relations
    exact ⟨given, tracked.filled, tracked.same⟩
  tables table := by
    obtain ⟨given, tracked⟩ := tracks.tables table
    exact ⟨given, tracked.filled, tracked.only, tracked.taken⟩

/-- A popped block is tracked with its transactions. -/
theorem Tracks.receive (tracks : Tracks cliArgs start db loop popped mapped)
    {forgotten : ℕ → Hash → Bool} {data : TransactionData}
    (ran : Session.run (loop.receive cliArgs forgotten data) db script =
      .done received final rest) :
    ∃ mapped, Tracks cliArgs start final received (popped ++ data.transactions) mapped :=
  (tracks.notify _).receiveAll ran

/-- An iteration tracks what it pops, and leaves nothing pending when it pushes. -/
theorem Tracks.iterate (tracks : Tracks cliArgs start db loop popped mapped)
    (ran : Session.run (loop.iterate cliArgs input) db script = .done (after, pushed) final rest) :
    ∃ mapped, Tracks cliArgs start final after
      (popped ++ input.popped.toList.flatMap TransactionData.transactions) mapped := by
  rcases done_iterate ran with ⟨nothing, rfl, rfl, rfl⟩ |
    ⟨data, received, middle, left, isPopped, receiveRan, committed⟩
  · rw [nothing, Option.toList_none, List.flatMap_nil, List.append_nil]
    exact ⟨mapped, tracks⟩
  · obtain ⟨nextMapped, received⟩ := tracks.receive receiveRan
    rw [isPopped, Option.toList_some, List.flatMap_singleton]
    rcases committed with ⟨rfl, rfl, rfl⟩ | ⟨_, _, commitRan⟩
    · exact ⟨nextMapped, received⟩
    · exact ⟨nextMapped, received.commit commitRan⟩

/-- An iteration of the transaction processor does not touch the tables of blocks. -/
theorem sameBlocks_of_iterate
    (ran : Session.run (loop.iterate cliArgs input) db script = .done (after, pushed) final rest) :
    final.blocks = db.blocks ∧ final.blockParent = db.blockParent := by
  rcases done_iterate ran with ⟨_, _, _, rfl⟩ |
    ⟨data, received, middle, left, _, receiveRan, committed⟩
  · exact ⟨rfl, rfl⟩
  · obtain ⟨numbering, received⟩ := exists_withNumbering_of_receiveAll receiveRan
    rcases committed with ⟨_, _, rfl⟩ | ⟨_, _, commitRan⟩
    · rw [received]
      exact ⟨rfl, rfl⟩
    · obtain ⟨⟨_, insertRan⟩, _⟩ := done_commit commitRan
      have others := sameOthers_of_insertBatch insertRan
      rw [others.blocks, others.blockParent, received]
      exact ⟨rfl, rfl⟩

end TransactionLoop

end VecnoIndexer
