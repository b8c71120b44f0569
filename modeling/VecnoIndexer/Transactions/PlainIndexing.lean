import VecnoIndexer.Transactions.Content
import VecnoIndexer.Transactions.Notifications

/-!
# Plain indexing

What the transaction processor is for: each transaction of each block inserted alone, in
order, without a cache.  The batched processor leaves the same rows, apart from the
columns that tell the occurrences of a transaction apart and from what is resolved, and
blocks that are delivered again change nothing.
-/

namespace VecnoIndexer

open VecnoIndexer.Sql
open VecnoIndexer.Collections
open VecnoIndexer.Transition

/-! ## Inserting one by one -/

/-- Insert the rows of one transaction alone. -/
def indexAlone (cliArgs : CliArgs) (subnetworkMap : SubnetworkMap) (transaction : RpcTransaction) :
    DbM SubnetworkMap := do
  let (key, subnetworkMap) ← subnetworkKey subnetworkMap transaction.subnetworkId
  match mapRows cliArgs transaction key, VecnoDbMapper.mapBlockTransaction transaction with
  | some rows, some relation => do
      let _inserted ← InsertStatement.executeAll (aloneInserts cliArgs rows relation)
      pure subnetworkMap
  | _, _ => Session.die

/-- Insert transactions one by one, in order. -/
def indexInOrder (cliArgs : CliArgs) (subnetworkMap : SubnetworkMap) :
    List RpcTransaction → DbM SubnetworkMap
  | [] => pure subnetworkMap
  | transaction :: rest => do
      let known ← indexAlone cliArgs subnetworkMap transaction
      indexInOrder cliArgs known rest

/-! Plain indexing returns only if every statement was executed. -/

theorem InsertStatement.strict_executeAll (inserts : List InsertStatement) :
    (executeAll inserts).Strict := by
  induction inserts with
  | nil => exact Session.strict_pure 0
  | cons insert rest ih =>
      refine (strict_of_statement _).unwrap.bind fun affected => ?_
      exact ih.bind fun total => Session.strict_pure _

theorem strict_subnetworkKey (subnetworkMap : SubnetworkMap) (subnetworkId : String) :
    (subnetworkKey subnetworkMap subnetworkId).Strict := by
  unfold subnetworkKey
  cases subnetworkMap.lookup subnetworkId with
  | some key => exact Session.strict_pure _
  | none =>
      refine Session.Strict.bind (Session.Strict.unwrap ?_) fun key => Session.strict_pure _
      refine (strict_of_statement _).bind fun returned => ?_
      cases returned with
      | some id => exact Session.strict_pure id
      | none => exact Session.strict_fail _

theorem strict_indexAlone (cliArgs : CliArgs) (subnetworkMap : SubnetworkMap)
    (transaction : RpcTransaction) : (indexAlone cliArgs subnetworkMap transaction).Strict := by
  refine (strict_subnetworkKey _ _).bind fun found => ?_
  obtain ⟨key, known⟩ := found
  simp only
  split
  · exact (InsertStatement.strict_executeAll _).bind fun inserted => Session.strict_pure known
  · exact Session.strict_die

theorem strict_indexInOrder (cliArgs : CliArgs) (subnetworkMap : SubnetworkMap)
    (transactions : List RpcTransaction) :
    (indexInOrder cliArgs subnetworkMap transactions).Strict := by
  induction transactions generalizing subnetworkMap with
  | nil => exact Session.strict_pure subnetworkMap
  | cons transaction rest ih =>
      exact (strict_indexAlone cliArgs subnetworkMap transaction).bind fun known => ih known

/-! ## Subnetworks are numbered in order -/

namespace Numbering

def of (subnetworkMap : SubnetworkMap) (db : Db) : Numbering :=
  ⟨subnetworkMap, db.subnetworks, db.subnetworksNextId⟩

def assignAll (numbering : Numbering) : List String → Option Numbering
  | [] => some numbering
  | subnetworkId :: rest =>
      (numbering.assign subnetworkId).bind fun assigned => assigned.2.assignAll rest

theorem assignAll_append {numbering middle after : Numbering} {first second : List String}
    (firstAssigned : numbering.assignAll first = some middle)
    (secondAssigned : middle.assignAll second = some after) :
    numbering.assignAll (first ++ second) = some after := by
  induction first generalizing numbering with
  | nil =>
      cases firstAssigned
      exact secondAssigned
  | cons subnetworkId rest ih =>
      obtain ⟨assigned, assignedEq, restAssigned⟩ := Option.bind_eq_some_iff.mp firstAssigned
      rw [List.cons_append, assignAll, assignedEq]
      exact ih restAssigned

end Numbering

/-! ## What plain indexing leaves -/

def plainRows (cliArgs : CliArgs) (subnetworkMap : SubnetworkMap) (transaction : RpcTransaction) :
    Option TransactionRows :=
  (subnetworkMap.lookup transaction.subnetworkId).bind (mapRows cliArgs transaction)

/-- Each table was given the rows of all transactions. -/
structure IndexedPlainly (cliArgs : CliArgs) (start db : Db) (subnetworkMap : SubnetworkMap)
    (transactions : List RpcTransaction) : Prop where
  rows : ∀ transaction ∈ transactions,
    ∃ rows, plainRows cliArgs subnetworkMap transaction = some rows
  tables : ∀ {α β κ : Type} {key : α → Option κ} {project : α → β}
    (table : IndexedTable cliArgs key project), ∃ given,
      Filled project given (fun _ => False) (table.place.get start) (table.place.get db) ∧
      ∀ row, row ∈ given ↔ ∃ transaction ∈ transactions, ∃ rows,
        plainRows cliArgs subnetworkMap transaction = some rows ∧ row ∈ table.mapped rows
  relations : ∃ given,
    Filled id given (fun _ => False) start.blocksTransactions db.blocksTransactions ∧
      ∀ row, row ∈ given ↔ cliArgs.isDisabled .blocksTransactionsTable = false ∧
        ∃ transaction ∈ transactions, VecnoDbMapper.mapBlockTransaction transaction = some row

section Plain

variable {cliArgs : CliArgs} {start db after : Db} {subnetworkMap known : SubnetworkMap}
  {transactions : List RpcTransaction} {transaction : RpcTransaction} {script rest : Script}

theorem indexedPlainly_nil (cliArgs : CliArgs) (db : Db) (subnetworkMap : SubnetworkMap) :
    IndexedPlainly cliArgs db db subnetworkMap [] where
  rows _ isNone := absurd isNone List.not_mem_nil
  tables _ := ⟨[], Filled.refl _, fun row => by simp⟩
  relations := ⟨[], Filled.refl _, fun row => by simp⟩

/-- A single transaction does not join anything. -/
theorem not_joins_of_aloneInserts {rows : TransactionRows} {relation : BlockTransaction}
    {insert : InsertStatement} (member : insert ∈ aloneInserts cliArgs rows relation) :
    ¬ insert.Joins := by
  have only : ∀ {enabled : Bool} {other : InsertStatement}, insert ∈ insertIf enabled other →
      insert = other := by
    intro enabled other isInsert
    cases enabled with
    | true => exact List.mem_singleton.mp isInsert
    | false => exact absurd isInsert List.not_mem_nil
  simp only [aloneInserts, List.mem_append] at member
  rcases member with ((((isInsert | isInsert) | isInsert) | isInsert) | isInsert) | isInsert <;>
    exact only isInsert ▸ id

theorem done_indexAlone
    (ran : Session.run (indexAlone cliArgs subnetworkMap transaction) db script =
      .done known after rest) :
    ∃ key rows relation numbering total left,
      (Numbering.of subnetworkMap db).assign transaction.subnetworkId = some (key, numbering) ∧
      numbering.subnetworkMap = known ∧ mapRows cliArgs transaction key = some rows ∧
      VecnoDbMapper.mapBlockTransaction transaction = some relation ∧
      Session.run (InsertStatement.executeAll (aloneInserts cliArgs rows relation))
        (db.withNumbering numbering) left = .done total after rest := by
  obtain ⟨⟨key, found⟩, middle, left, keyRan, ran⟩ := Session.done_of_run_bind ran
  obtain ⟨numbering, assigned, rfl, rfl⟩ := assign_of_subnetworkKey keyRan
  simp only at ran
  cases mapped : mapRows cliArgs transaction key with
  | none =>
      rw [mapped] at ran
      cases ran
  | some rows =>
      cases related : VecnoDbMapper.mapBlockTransaction transaction with
      | none =>
          rw [mapped, related] at ran
          cases ran
      | some relation =>
          rw [mapped, related] at ran
          obtain ⟨total, last, lastRest, insertRan, ran⟩ := Session.done_of_run_bind ran
          cases ran
          exact ⟨key, rows, relation, numbering, total, left, assigned, rfl, mapped, rfl, insertRan⟩

/-- Inserting one more transaction gives each table its rows. -/
theorem IndexedPlainly.concat (indexed : IndexedPlainly cliArgs start db subnetworkMap transactions)
    (ran : Session.run (indexAlone cliArgs subnetworkMap transaction) db script =
      .done known after rest) :
    IndexedPlainly cliArgs start after known (transactions ++ [transaction]) := by
  obtain ⟨key, rows, relation, numbering, total, left, assigned, rfl, mapped, related, insertRan⟩ :=
    done_indexAlone ran
  have lastRows : plainRows cliArgs numbering.subnetworkMap transaction = some rows := by
    rw [plainRows, Numbering.lookup_assign assigned]
    exact mapped
  have earlierRows : ∀ other ∈ transactions, ∀ otherRows,
      plainRows cliArgs numbering.subnetworkMap other = some otherRows ↔
        plainRows cliArgs subnetworkMap other = some otherRows := by
    intro other among otherRows
    obtain ⟨before, beforeEq⟩ := indexed.rows other among
    have stillEq : plainRows cliArgs numbering.subnetworkMap other = some before := by
      obtain ⟨otherKey, found, otherMapped⟩ := Option.bind_eq_some_iff.mp beforeEq
      rw [plainRows, Numbering.lookup_of_assign assigned found]
      exact otherMapped
    rw [stillEq, beforeEq]
  have same : SameTransactions db (db.withNumbering numbering) := ⟨rfl, rfl, rfl, rfl, rfl, rfl⟩
  constructor
  · intro other among
    rcases List.mem_append.mp among with earlier | isLast
    · obtain ⟨before, beforeEq⟩ := indexed.rows other earlier
      exact ⟨before, (earlierRows other earlier before).mpr beforeEq⟩
    · rw [List.mem_singleton.mp isLast]
      exact ⟨rows, lastRows⟩
  · intro α β κ rowKey project table
    obtain ⟨given, filled, given_iff⟩ := indexed.tables table
    have more := (table.filled_of_executeAll insertRan).mono
      (fun row ⟨⟨insert, isInsert, joins⟩, _⟩ => not_joins_of_aloneInserts isInsert joins)
    rw [table.alone, table.frame same] at more
    refine ⟨_, filled.trans more, fun row => ?_⟩
    rw [List.mem_append, given_iff]
    constructor
    · rintro (⟨other, among, otherRows, otherEq, rowMem⟩ | isNew)
      · exact ⟨other, List.mem_append_left _ among, otherRows,
          (earlierRows other among otherRows).mpr otherEq, rowMem⟩
      · exact ⟨transaction, List.mem_append_right _ List.mem_cons_self, rows, lastRows, isNew⟩
    · rintro ⟨other, among, otherRows, otherEq, rowMem⟩
      rcases List.mem_append.mp among with earlier | isLast
      · exact Or.inl ⟨other, earlier, otherRows,
          (earlierRows other earlier otherRows).mp otherEq, rowMem⟩
      · rw [List.mem_singleton.mp isLast, lastRows] at otherEq
        cases otherEq
        exact Or.inr rowMem
  · obtain ⟨given, filled, given_iff⟩ := indexed.relations
    have more := (FilledTable.blocksTransactions.filled_of_executeAll insertRan).mono
      (fun row ⟨⟨insert, isInsert, joins⟩, _⟩ => not_joins_of_aloneInserts isInsert joins)
    refine ⟨_, filled.trans more, fun row => ?_⟩
    rw [List.mem_append, given_iff, flatMap_aloneInserts_blocksTransactions,
      IndexedTable.mem_rowsIf,
      Bool.not_eq_true', List.mem_singleton]
    constructor
    · rintro (⟨enabled, other, among, otherEq⟩ | ⟨enabled, rfl⟩)
      · exact ⟨enabled, other, List.mem_append_left _ among, otherEq⟩
      · exact ⟨enabled, transaction, List.mem_append_right _ List.mem_cons_self, related⟩
    · rintro ⟨enabled, other, among, otherEq⟩
      rcases List.mem_append.mp among with earlier | isLast
      · exact Or.inl ⟨enabled, other, earlier, otherEq⟩
      · rw [List.mem_singleton.mp isLast, related] at otherEq
        exact Or.inr ⟨enabled, (Option.some.inj otherEq).symm⟩

theorem IndexedPlainly.append (indexed : IndexedPlainly cliArgs start db subnetworkMap transactions)
    {more : List RpcTransaction}
    (ran : Session.run (indexInOrder cliArgs subnetworkMap more) db script =
      .done known after rest) :
    IndexedPlainly cliArgs start after known (transactions ++ more) := by
  induction more generalizing subnetworkMap db script transactions with
  | nil =>
      cases ran
      rw [List.append_nil]
      exact indexed
  | cons transaction later ih =>
      obtain ⟨middleMap, middle, left, firstRan, ran⟩ := Session.done_of_run_bind ran
      have all := ih (indexed.concat firstRan) ran
      rw [List.append_assoc] at all
      exact all

theorem assignAll_of_indexInOrder
    (ran : Session.run (indexInOrder cliArgs subnetworkMap transactions) db script =
      .done known after rest) :
    (Numbering.of subnetworkMap db).assignAll (transactions.map RpcTransaction.subnetworkId) =
      some (Numbering.of known after) := by
  induction transactions generalizing subnetworkMap db script with
  | nil =>
      cases ran
      rfl
  | cons transaction later ih =>
      obtain ⟨middleMap, middle, left, firstRan, ran⟩ := Session.done_of_run_bind ran
      obtain ⟨key, rows, relation, numbering, total, _, assigned, rfl, _, _, insertRan⟩ :=
        done_indexAlone firstRan
      have others := InsertStatement.sameOthers_of_executeAll insertRan
      have first : numbering = Numbering.of numbering.subnetworkMap middle := by
        rw [Numbering.of, others.subnetworks, others.subnetworksNextId]
        rfl
      rw [List.map_cons, Numbering.assignAll, assigned, Option.bind_some, ← ih ran, ← first]

end Plain

/-! ## The batched processor numbers in the same order -/

namespace TransactionLoop

variable {cliArgs : CliArgs} {loop after received : TransactionLoop} {input : TransactionsInput}
  {db final : Db} {script rest : Script} {pushed : List CheckpointBlock}

theorem assign_of_receiveTransaction {forgotten : Hash → Bool} {transaction : RpcTransaction}
    (ran : Session.run (loop.receiveTransaction cliArgs forgotten transaction) db script =
      .done received final rest) :
    ∃ key, (Numbering.of loop.subnetworkMap db).assign transaction.subnetworkId =
      some (key, .of received.subnetworkMap final) := by
  obtain ⟨key, numbering, assigned, rfl, collected⟩ := done_receiveTransaction ran
  have sameMap : received.subnetworkMap = numbering.subnetworkMap := by
    obtain ⟨_, _, _, _, ⟨_, rfl⟩ | ⟨_, _, rfl⟩⟩ := collect_cases collected
    · rfl
    · rfl
  rw [sameMap]
  exact ⟨key, assigned⟩

theorem assignAll_of_receiveAll {forgotten : ℕ → Hash → Bool} {transactions : List RpcTransaction}
    (ran : Session.run (loop.receiveAll cliArgs forgotten transactions) db script =
      .done received final rest) :
    (Numbering.of loop.subnetworkMap db).assignAll
      (transactions.map RpcTransaction.subnetworkId) =
        some (.of received.subnetworkMap final) := by
  induction transactions generalizing loop forgotten db script with
  | nil =>
      cases ran
      rfl
  | cons transaction later ih =>
      obtain ⟨next, middle, left, firstRan, ran⟩ := Session.done_of_run_bind ran
      obtain ⟨key, assigned⟩ := assign_of_receiveTransaction firstRan
      rw [List.map_cons, Numbering.assignAll, assigned]
      exact ih ran

theorem assignAll_of_iterate
    (ran : Session.run (loop.iterate cliArgs input) db script = .done (after, pushed) final rest) :
    (Numbering.of loop.subnetworkMap db).assignAll
      ((input.popped.toList.flatMap TransactionData.transactions).map
        RpcTransaction.subnetworkId) = some (.of after.subnetworkMap final) := by
  rcases done_iterate ran with ⟨nothing, rfl, rfl, rfl⟩ |
    ⟨data, received, middle, left, isPopped, receiveRan, committed⟩
  · rw [nothing]
    rfl
  · rw [isPopped, Option.toList_some, List.flatMap_singleton]
    have assigned := assignAll_of_receiveAll receiveRan
    rcases committed with ⟨rfl, _, rfl⟩ | ⟨_, _, commitRan⟩
    · exact assigned
    · obtain ⟨⟨_, insertRan⟩, rfl⟩ := done_commit commitRan
      have others := sameOthers_of_insertBatch insertRan
      have same : Numbering.of (received.cleared input.commitNow).subnetworkMap final =
          .of received.subnetworkMap middle := by
        rw [Numbering.of, others.subnetworks, others.subnetworksNextId]
        rfl
      rw [same]
      exact assigned

end TransactionLoop

/-- An iteration of the block processor does not touch the subnetworks. -/
theorem BlockLoop.sameSubnetworks_of_iterate {settings : Settings} {loop after : BlockLoop}
    {input : BlockInput} {db final : Db} {script rest : Script} {pushed : List CheckpointBlock}
    (ran : Session.run (loop.iterate settings input) db script = .done (after, pushed) final rest) :
    final.subnetworks = db.subnetworks ∧ final.subnetworksNextId = db.subnetworksNextId := by
  rcases done_iterate ran with ⟨_, _, _, rfl⟩ |
    ⟨blockData, received, _, _, ⟨_, _, rfl⟩ | ⟨_, last, commitRan⟩⟩
  · exact ⟨rfl, rfl⟩
  · exact ⟨rfl, rfl⟩
  · obtain ⟨counted, left, clearRan, _⟩ := done_commit commitRan
    obtain ⟨acceptances, rfl⟩ := done_clearAcceptances clearRan
    unfold inserted
    split_ifs <;> exact ⟨rfl, rfl⟩

namespace IndexingWorld

variable {settings : Settings} {world : IndexingWorld}

/-- The subnetworks of the popped transactions were numbered in order. -/
def Numbered (start : Db) (world : IndexingWorld) : Prop :=
  ∀ loop, world.transactionLoop = some loop →
    (Numbering.of (loadSubnetworks start.subnetworks.rows) start).assignAll
      (world.transactions.map RpcTransaction.subnetworkId) =
        some (.of loop.subnetworkMap world.db)

theorem Numbered.step {start : Db} (numbered : world.Numbered start) (event : IndexingEvent) :
    (world.step settings event).Numbered start := by
  intro next running
  have stepped := world.stepped settings event
  generalize world.step settings event = after at stepped running ⊢
  cases stepped with
  | idle => exact numbered next running
  | blocks _ ran =>
      have same := BlockLoop.sameSubnetworks_of_iterate ran
      have before := numbered next running
      simp only [Numbering.of] at before ⊢
      simp only [afterBlocks, same.1, same.2]
      exact before
  | transactions earlier ran =>
      cases running
      have assigned := TransactionLoop.assignAll_of_iterate ran
      simp only [transactions_afterTransactions, List.map_append]
      exact Numbering.assignAll_append (numbered _ earlier) assigned
  | blocksDie _ => cases running
  | transactionsDie _ => cases running
  | other change => exact numbered next running

theorem numbered_of_run (settings : Settings) (db : Db) (now : ℕ) (events : List IndexingEvent) :
    (runFrom (IndexingWorld.step settings) (start db now) events).Numbered db := by
  refine @invariant_of_run _ _ _ (Numbered db) (fun _ event numbered => numbered.step event) _
    events ?_
  rintro loop ⟨⟩
  rfl

end IndexingWorld

end VecnoIndexer
