import VecnoIndexer.System.Links
import VecnoIndexer.Transactions.ReadBack

/-!
# What was sent can be read back

The key of a subnetwork in a row is that of its text in the table, whichever process numbered
it.  So, over any number of lives, every relation that is stored leads to a transaction that can
be read back as the node sent it.
-/

namespace VecnoIndexer

open VecnoIndexer.Sql
open VecnoIndexer.Collections
open VecnoIndexer.Transition

/-! ## Subnetworks -/

/-- The tables that the numbering of subnetworks is about are the same. -/
structure SameNumbering (db after : Db) : Prop where
  subnetworks : after.subnetworks = db.subnetworks
  nextId : after.subnetworksNextId = db.subnetworksNextId
  transactions : after.transactions = db.transactions

theorem SameNumbering.refl (db : Db) : SameNumbering db db :=
  ⟨rfl, rfl, rfl⟩

theorem SameIndexed.sameNumbering {db after : Db} (same : SameIndexed db after) :
    SameNumbering db after :=
  ⟨same.subnetworks, same.subnetworksNextId, same.transactions⟩

section Same

variable {cliArgs : CliArgs} {popped : List RpcTransaction} {subnetworkMap : SubnetworkMap}
  {held : List Transaction} {db after : Db}

theorem Numbered.of_same (numbered : Numbered cliArgs popped db) (same : SameNumbering db after) :
    Numbered cliArgs popped after where
  distinct := by
    rw [same.subnetworks]
    exact numbered.distinct
  fresh := by
    rw [same.subnetworks, same.nextId]
    exact numbered.fresh
  mapped := by
    rw [same.subnetworks, same.transactions]
    exact numbered.mapped

theorem Interned.of_same (interned : Interned cliArgs popped subnetworkMap held db)
    (same : SameNumbering db after) : Interned cliArgs popped subnetworkMap held after where
  toNumbered := interned.toNumbered.of_same same
  agrees := by
    rw [same.subnetworks]
    exact interned.agrees
  heldMapped := by
    rw [same.subnetworks]
    exact interned.heldMapped

theorem numbered_of_unindexed (unindexed : db.Unindexed) : Numbered cliArgs popped db where
  distinct := by
    rw [unindexed.subnetworks]
    exact List.nodup_nil
  fresh := by
    rw [unindexed.subnetworks]
    exact fun row stored => absurd stored (Table.notMem_empty row)
  mapped := by
    rw [unindexed.transactions]
    exact fun row stored => absurd stored (Table.notMem_empty row)

end Same

namespace System

variable {settings : Settings} {start : Db} {received : Received} {system next : System}

theorem sameNumbering_of_blocks (settings : Settings) (system : System) (input : BlockInput)
    (script : Script) :
    SameNumbering system.db (system.dbAfter settings (.blocks input script)) := by
  simp only [dbAfter]
  cases system.tasks.blockProcessor with
  | looping loop =>
      simp only [Task.leaves]
      split
      · exact .refl _
      · have keeps : (loop.iterate settings
            { input with popped := system.tasks.blocksQueue.pop.1 }).Keeps
              (SameNumbering system.db) :=
          loop.keeps_tables (fun _ _ same => { same with }) (fun _ _ same => { same with })
            (fun _ _ same => { same with }) settings _
        exact keeps system.db script (.refl _)
  | _ => exact .refl _

/-- The tables are numbered, and the transaction processor knows their numbers. -/
structure Interns (cliArgs : CliArgs) (received : Received) (system : System) : Prop where
  numbered : Numbered cliArgs received.transactions system.db
  interned : system.tasks.ended = false → ∀ loop,
    system.tasks.transactionProcessor.locals = some loop →
      Interned cliArgs received.transactions loop.subnetworkMap loop.transactions system.db

theorem Interns.numbered_dbAfter (interns : system.Interns settings.cliArgs received)
    (explained : system.Explained settings.cliArgs start received) (channels : system.Channels)
    (alive : system.tasks.ended = false) (event : SystemEvent) :
    Numbered settings.cliArgs received.transactions (system.dbAfter settings event) := by
  cases event with
  | signal => exact interns.numbered
  | fetch input => exact interns.numbered
  | blocks input script =>
      exact interns.numbered.of_same (sameNumbering_of_blocks settings system input script)
  | transactions input script =>
      simp only [dbAfter]
      cases processor : system.tasks.transactionProcessor with
      | looping loop =>
          simp only [Task.leaves]
          split
          · exact interns.numbered
          · exact ((interned_invariant settings.cliArgs received.transactions).iterate loop
              { input with popped := system.tasks.txsQueue.pop.1 }
              (fun _ => explained.pops_transactions channels) system.db script
              (interns.interned alive loop (congrArg Task.locals processor))).1
      | starting =>
          simp only [Task.leaves, state_transactionLoop_start]
          exact interns.numbered
      | _ => exact interns.numbered
  | virtualChain input script =>
      exact interns.numbered.of_same
        (sameIndexed_of_virtualChain settings input script).sameNumbering
  | checkpoints input hashOrder script =>
      exact interns.numbered.of_same
        (sameIndexed_of_checkpoints settings input hashOrder script).sameNumbering

/-- A turn of the transaction processor. -/
theorem Interns.transactions_turn (interns : system.Interns settings.cliArgs received)
    (explained : system.Explained settings.cliArgs start received) (channels : system.Channels)
    (alive : system.tasks.ended = false) {input : TransactionsInput} {script : Script}
    {after : Task TransactionLoop} {left : ArrayQueue CheckpointBlock}
    (turned : system.transactionTurn settings input script = some (after, left)) :
    ∀ loop, after.locals = some loop →
      Interned settings.cliArgs received.transactions loop.subnetworkMap loop.transactions
        (system.dbAfter settings (.transactions input script)) := by
  simp only [dbAfter]
  rcases (Task.turned_of_turn turned).effect with quiet | ⟨starting, loop, started, rfl⟩ |
    ⟨_, loop, _, rfl⟩ | ⟨up, loop, final, pushed, looping, iterated, rfl⟩
  · rw [quiet.leaves]
    exact fun loop running => interns.interned alive loop (quiet.locals.symm.trans running)
  · obtain ⟨db, rest, ran⟩ := exists_of_returnedValue started
    have loaded := (ensures_start settings.cliArgs received.transactions input.now system.db script
      interns.numbered).2 loop db rest ran
    rw [starting, Task.leaves_starting, ran]
    rintro _ ⟨⟩
    exact loaded
  · rintro _ ⟨⟩
  · obtain ⟨db, rest, ran⟩ := exists_of_returnedValue iterated
    have kept := ((interned_invariant settings.cliArgs received.transactions).iterate loop
      { input with popped := system.tasks.txsQueue.pop.1 }
      (fun _ => explained.pops_transactions channels) system.db script
      (interns.interned alive loop (congrArg Task.locals looping))).2 _ _ _ ran
    rw [looping, up, Task.leaves_looping_of_up, ran, Task.locals_after]
    rintro _ ⟨⟩
    exact kept

/-- The step lemma. -/
theorem Interns.step (interns : system.Interns settings.cliArgs received)
    (explained : system.Explained settings.cliArgs start received) (channels : system.Channels)
    (alive : system.tasks.ended = false) (event : SystemEvent) :
    (system.step settings event).Interns settings.cliArgs received := by
  have numbered := interns.numbered_dbAfter explained channels alive event
  rw [← db_step alive event] at numbered
  refine ⟨numbered, ?_⟩
  have stepped := stepped settings system event
  generalize system.step settings event = next at stepped numbered
  intro lives
  cases stepped with
  | idle _ => exact interns.interned lives
  | dies ended => exact absurd (ended.symm.trans lives) (by decide)
  | signal alive => exact interns.interned alive
  | fetch alive input _ =>
      obtain ⟨_, processor, _⟩ := fetch_processors system.tasks input
      exact fun loop running => interns.interned alive loop
        ((congrArg Task.locals processor).symm.trans running)
  | blocks alive turned =>
      exact fun loop running => (interns.interned alive loop running).of_same
        (sameNumbering_of_blocks settings system _ _)
  | transactions alive turned => exact interns.transactions_turn explained channels alive turned
  | virtualChain alive turned =>
      exact fun loop running => (interns.interned alive loop running).of_same
        (sameIndexed_of_virtualChain settings _ _).sameNumbering
  | checkpoints alive turned =>
      exact fun loop running => (interns.interned alive loop running).of_same
        (sameIndexed_of_checkpoints settings _ _ _).sameNumbering

end System

/-! ## Any number of lives -/

namespace Deployment

variable {cliArgs : CliArgs} {origin : Db} {received : Received} {deployment : Deployment}

/-- The invariant: relations lead to stored transactions, whose subnetworks are numbered. -/
structure Readable (cliArgs : CliArgs) (origin : Db) (received : Received)
    (deployment : Deployment) : Prop where
  linked : deployment.Linked cliArgs origin received
  interns : deployment.system.Interns cliArgs received

/-- No processor runs yet. -/
theorem interns_spawned (settings : Settings) (startup : Startup) {db : Db}
    (numbered : Numbered cliArgs received.transactions db) :
    (spawned settings startup db).system.Interns cliArgs received where
  numbered := numbered
  interned := by
    simp only [spawned, System.spawn, TaskWorld.spawn]
    split_ifs <;> rintro _ _ ⟨⟩

theorem Readable.step (readable : deployment.Readable cliArgs origin received)
    {event : DeploymentEvent} (includes : received.Includes cliArgs event) :
    (deployment.step event).Readable cliArgs origin received := by
  refine ⟨readable.linked.step includes, ?_⟩
  obtain ⟨⟨⟨rfl, _, live⟩, _, _⟩, interns⟩ := readable
  cases event with
  | turn event =>
      cases ended : deployment.system.tasks.ended with
      | true =>
          have same : deployment.step (.turn event) = deployment := by
            simp only [step, System.step_of_ended ended]
          rw [same]
          exact interns
      | false =>
          obtain ⟨⟨_, sound⟩, held⟩ := live ended
          exact interns.step held (sound.channels ended) ended event
  | start env input script =>
      have frame : ImportFrame deployment.settings.cliArgs env input.utxos
          (SameNumbering deployment.system.db) :=
        ⟨fun _ _ same => { same with }, fun _ _ same => { same with },
          fun _ _ _ same => { same with }⟩
      have same : SameNumbering deployment.system.db (deployment.startup env input script).state :=
        frame.startProcessing (fun _ _ same => { same with }) _ _ (.refl _)
      rcases step_start_cases deployment env input script with ⟨startup, db, rest, started, eq⟩ | eq
      · rw [started] at same
        rw [eq]
        exact interns_spawned _ startup (interns.numbered.of_same same)
      · rw [eq]
        refine ⟨interns.numbered.of_same same, fun lives => ?_⟩
        contradiction

theorem readable_spawned (settings : Settings) (startup : Startup) {db : Db}
    (unindexed : db.Unindexed) (received : Received) :
    (spawned settings startup db).Readable settings.cliArgs db received where
  linked := by
    refine ⟨explained_spawned startup Received.explains_self, Received.links_self, ?_⟩
    rintro _ _ ⟨⟩
  interns := interns_spawned settings startup (numbered_of_unindexed unindexed)

/-- What a relation leads to. -/
theorem Readable.readTransaction (readable : deployment.Readable cliArgs origin received)
    (records : RecordsAll cliArgs) (unindexed : origin.Unindexed)
    (same : SameContentById received.transactions) (honest : received.Honest cliArgs)
    {relation : BlockTransaction} (stored : relation ∈ deployment.system.db.blocksTransactions) :
    relation ∈ origin.blocksTransactions ∨ ∃ transaction ∈ received.transactions,
      VecnoDbMapper.mapBlockTransaction transaction = some relation ∧
        deployment.system.db.readTransaction relation.transactionId =
          some transaction.recorded := by
  obtain ⟨⟨⟨_, explains, _⟩, links, _⟩, interns⟩ := readable
  rcases links.transactions relation stored with before | ⟨other, otherReceived, otherId, complete⟩
  · exact Or.inl before
  · rcases explains (.relation relation) stored with before | ⟨transaction, isReceived, mapped⟩
    · exact Or.inl before
    · refine Or.inr ⟨transaction, isReceived, mapped, ?_⟩
      have idEq : transaction.transactionId = some relation.transactionId := by
        simp only [VecnoDbMapper.mapBlockTransaction, Option.bind_eq_bind,
          Option.bind_eq_some_iff] at mapped
        obtain ⟨verboseData, hasVerbose, eq⟩ := mapped
        cases eq
        rw [RpcTransaction.transactionId, hasVerbose]
        rfl
      rw [Received.readTransaction_eq_some records same honest unindexed explains interns.numbered
        otherReceived otherId complete]
      exact congrArg some (recorded_eq_of_content
        (same other otherReceived transaction isReceived (otherId.trans idEq.symm)))

/-- From a database without transactions, with all fields included, over any number of crashes
and restarts: whatever relation is stored, the transaction that was sent in that block can be
read back from the tables. -/
theorem readTransaction_of_run (settings : Settings) (startup : Startup) (db : Db)
    (events : List DeploymentEvent) (records : RecordsAll settings.cliArgs)
    (unindexed : db.Unindexed)
    (same : SameContentById (Received.during settings.cliArgs events).transactions)
    (honest : (Received.during settings.cliArgs events).Honest settings.cliArgs) :
    ∀ relation ∈ (runFrom step (spawned settings startup db) events).system.db.blocksTransactions,
      relation ∈ db.blocksTransactions ∨
      ∃ transaction ∈ (Received.during settings.cliArgs events).transactions,
        VecnoDbMapper.mapBlockTransaction transaction = some relation ∧
          (runFrom step (spawned settings startup db) events).system.db.readTransaction
            relation.transactionId = some transaction.recorded := by
  intro relation stored
  have readable : (runFrom step (spawned settings startup db) events).Readable settings.cliArgs db
      (.during settings.cliArgs events) :=
    invariant_of_along (fun _ _ readable includes => readable.step includes)
      (readable_spawned settings startup unindexed _)
      (along_of_forall _ fun _ => Received.includes_during settings.cliArgs)
  exact readable.readTransaction records unindexed same honest stored

end Deployment

/-! ## Two transactions -/

/-- The two blocks are handed over and one of them is committed. -/
def readTwoBlocks : Deployment :=
  runFrom Deployment.step paidStart (twoBlocks.map .turn)

theorem readTwoBlocks_readTransaction :
    (∀ relation ∈ readTwoBlocks.system.db.blocksTransactions,
      relation ∈ paidStart.system.db.blocksTransactions ∨
      ∃ transaction ∈ (Received.during chainlessSettings.cliArgs
          (twoBlocks.map .turn)).transactions,
        VecnoDbMapper.mapBlockTransaction transaction = some relation ∧
          readTwoBlocks.system.db.readTransaction relation.transactionId =
            some transaction.recorded) ∧
    readTwoBlocks.system.db.blocksTransactions.rows ≠ [] := by
  constructor
  · apply Deployment.readTransaction_of_run
    · exact ⟨by decide, by decide, by decide, by decide⟩
    · exact ⟨rfl, rfl, rfl, rfl⟩
    · unfold SameContentById
      decide +kernel
    · have none : (Received.during chainlessSettings.cliArgs (twoBlocks.map .turn)).imported = [] :=
        rfl
      intro row imported
      rw [none] at imported
      contradiction
  · decide +kernel

end VecnoIndexer
