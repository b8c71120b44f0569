import VecnoIndexer.Transactions.Iterations

/-!
# Subnetwork keys across restarts

The table of subnetworks has no unique constraint on the ids that are interned.  They stay
distinct because one processor at a time asks a map that it loads when it starts and
extends with every insert.  Wherever a process dies, the rows it has stored refer to
subnetworks stored before them.
-/

namespace VecnoIndexer

open VecnoIndexer.Sql
open VecnoIndexer.Collections
open VecnoIndexer.Transition

/-! ## Map and table -/

/-- The map has the ids of the rows, each with its key. -/
def SubnetworkMap.Agrees (subnetworkMap : SubnetworkMap) (rows : List Subnetwork) : Prop :=
  ∀ subnetworkId key, subnetworkMap.lookup subnetworkId = some key ↔ ⟨key, subnetworkId⟩ ∈ rows

namespace SubnetworkMap.Agrees

variable {subnetworkMap : SubnetworkMap} {rows : List Subnetwork}

/-- One more id, which no row has. -/
theorem concat (agrees : subnetworkMap.Agrees rows) {subnetworkId : String}
    (unknown : ∀ row ∈ rows, row.subnetworkId ≠ subnetworkId) (key : Int) :
    Agrees ((subnetworkId, key) :: subnetworkMap) (rows ++ [⟨key, subnetworkId⟩]) := by
  intro other otherKey
  rw [List.mem_append, List.mem_singleton, List.lookup_cons]
  by_cases same : other = subnetworkId
  · subst same
    simp only [beq_self_eq_true, Option.some.injEq, Subnetwork.mk.injEq, and_true]
    constructor
    · rintro rfl
      exact Or.inr rfl
    · rintro (stored | rfl)
      · exact absurd rfl (unknown _ stored)
      · rfl
  · simp only [beq_false_of_ne same, agrees other otherKey, Subnetwork.mk.injEq, same, and_false,
      or_false]

theorem unknown (agrees : subnetworkMap.Agrees rows) {subnetworkId : String}
    (missing : subnetworkMap.lookup subnetworkId = none) :
    ∀ row ∈ rows, row.subnetworkId ≠ subnetworkId := by
  rintro row stored rfl
  rw [(agrees row.subnetworkId row.id).mpr stored] at missing
  contradiction

end SubnetworkMap.Agrees

/-- The map loaded agrees with rows whose ids are distinct. -/
theorem agrees_loadSubnetworks {rows : List Subnetwork}
    (distinct : (rows.map Subnetwork.subnetworkId).Nodup) :
    (loadSubnetworks rows).Agrees rows := by
  induction rows using List.reverseRecOn with
  | nil => exact fun _ _ => by simp [loadSubnetworks]
  | append_singleton earlier last ih =>
      rw [List.map_append, List.nodup_append] at distinct
      obtain ⟨earlierDistinct, _, apart⟩ := distinct
      have loaded : loadSubnetworks (earlier ++ [last]) =
          (last.subnetworkId, last.id) :: loadSubnetworks earlier := by
        simp [loadSubnetworks]
      rw [loaded]
      exact (ih earlierDistinct).concat
        (fun row stored => apart _ (List.mem_map_of_mem stored) _ List.mem_cons_self) last.id

/-! ## What holds of the tables and of a processor -/

theorem columns_of_mapTransaction {mapper : VecnoDbMapper} {transaction : RpcTransaction}
    {key : Int} {row : Transaction} (mapped : mapper.mapTransaction transaction key = some row) :
    transaction.transactionId = some row.transactionId ∧
      ∀ stored, row.subnetworkId = some stored → stored = key := by
  simp only [VecnoDbMapper.mapTransaction, Option.bind_eq_bind, Option.bind_eq_some_iff] at mapped
  obtain ⟨verboseData, hasVerbose, _, _, _, _, eq⟩ := mapped
  cases eq
  refine ⟨by rw [RpcTransaction.transactionId, hasVerbose]; rfl, fun stored isStored => ?_⟩
  exact (thenSome_eq_some_iff.mp isStored).2.symm

/-- The transaction was popped and its row refers to its own subnetwork, unless the mapper left
the column out. -/
def Transaction.MappedIn (cliArgs : CliArgs) (popped : List RpcTransaction)
    (subnetworks : Table Subnetwork.primaryKey) (row : Transaction) : Prop :=
  ∃ transaction ∈ popped, ∃ key, ⟨key, transaction.subnetworkId⟩ ∈ subnetworks ∧
    (VecnoDbMapper.new cliArgs).mapTransaction transaction key = some row

theorem Transaction.MappedIn.mono {cliArgs : CliArgs} {popped more : List RpcTransaction}
    {subnetworks extended : Table Subnetwork.primaryKey} {row : Transaction}
    (mapped : row.MappedIn cliArgs popped subnetworks)
    (poppedStill : ∀ transaction ∈ popped, transaction ∈ more)
    (storedStill : ∀ subnetwork ∈ subnetworks, subnetwork ∈ extended) :
    row.MappedIn cliArgs more extended := by
  obtain ⟨transaction, isPopped, key, stored, rowEq⟩ := mapped
  exact ⟨transaction, poppedStill transaction isPopped, key, storedStill _ stored, rowEq⟩

/-- What every process leaves in the tables. -/
structure Numbered (cliArgs : CliArgs) (popped : List RpcTransaction) (db : Db) : Prop where
  distinct : (db.subnetworks.rows.map Subnetwork.subnetworkId).Nodup
  fresh : ∀ row ∈ db.subnetworks, row.id < db.subnetworksNextId
  mapped : ∀ row ∈ db.transactions, row.MappedIn cliArgs popped db.subnetworks

/-- What a process that is alive knows of them, besides the rows it holds. -/
structure Interned (cliArgs : CliArgs) (popped : List RpcTransaction)
    (subnetworkMap : SubnetworkMap) (held : List Transaction) (db : Db) : Prop extends
    Numbered cliArgs popped db where
  agrees : subnetworkMap.Agrees db.subnetworks.rows
  heldMapped : ∀ row ∈ held, row.MappedIn cliArgs popped db.subnetworks

section Processor

variable {cliArgs : CliArgs} {popped : List RpcTransaction} {subnetworkMap : SubnetworkMap}
  {held : List Transaction} {db : Db}

theorem Numbered.free (numbered : Numbered cliArgs popped db) (subnetworkId : String) :
    ¬ db.subnetworks.Conflicts ⟨db.subnetworksNextId, subnetworkId⟩ := by
  rintro ⟨_, row, stored, sameId⟩
  have below := numbered.fresh row stored
  have equal : row.id = db.subnetworksNextId := Option.some.inj sameId
  omega

theorem Numbered.mono (numbered : Numbered cliArgs popped db) (more : List RpcTransaction) :
    Numbered cliArgs (popped ++ more) db where
  distinct := numbered.distinct
  fresh := numbered.fresh
  mapped row stored := (numbered.mapped row stored).mono
    (fun _ isPopped => List.mem_append_left more isPopped) fun _ => id

theorem Interned.mono (interned : Interned cliArgs popped subnetworkMap held db)
    (more : List RpcTransaction) : Interned cliArgs (popped ++ more) subnetworkMap held db where
  toNumbered := interned.toNumbered.mono more
  agrees := interned.agrees
  heldMapped row isHeld := (interned.heldMapped row isHeld).mono
    (fun _ isPopped => List.mem_append_left more isPopped) fun _ => id

/-- An id the map does not know is inserted with a key no row has. -/
theorem Interned.insert (interned : Interned cliArgs popped subnetworkMap held db)
    {subnetworkId : String} (missing : subnetworkMap.lookup subnetworkId = none) :
    Interned cliArgs popped ((subnetworkId, db.subnetworksNextId) :: subnetworkMap) held
      { db with
        subnetworks := db.subnetworks.insertIgnore ⟨db.subnetworksNextId, subnetworkId⟩
        subnetworksNextId := db.subnetworksNextId + 1 } := by
  have unknown := interned.agrees.unknown missing
  have rowsEq : (db.subnetworks.insertIgnore ⟨db.subnetworksNextId, subnetworkId⟩).rows =
      db.subnetworks.rows ++ [⟨db.subnetworksNextId, subnetworkId⟩] := by
    rw [Table.insertIgnore, dif_neg (interned.free subnetworkId)]
    rfl
  have kept : ∀ row ∈ db.subnetworks,
      row ∈ db.subnetworks.insertIgnore ⟨db.subnetworksNextId, subnetworkId⟩ :=
    fun row stored => Table.mem_insertIgnore.mpr (Or.inl stored)
  constructor
  · constructor
    · simp only [rowsEq, List.map_append, List.map_cons, List.map_nil]
      refine List.nodup_append.mpr ⟨interned.distinct, List.nodup_singleton _, ?_⟩
      rintro _ isStored _ isNew rfl
      obtain ⟨row, stored, rfl⟩ := List.mem_map.mp isStored
      exact unknown row stored (List.mem_singleton.mp isNew)
    · intro row stored
      simp only [Table.mem_def, rowsEq, List.mem_append, List.mem_singleton] at stored
      rcases stored with before | rfl
      · exact Int.lt_add_one_of_le (interned.fresh row before).le
      · exact Int.lt_succ _
    · exact fun row stored => (interned.mapped row stored).mono (fun _ => id) kept
  · simp only [rowsEq]
    exact interned.agrees.concat unknown db.subnetworksNextId
  · exact fun row isHeld => (interned.heldMapped row isHeld).mono (fun _ => id) kept

/-! ## The processor -/

/-- The insert never meets the key of a row, so it returns the key of the row it adds. -/
theorem ensures_insertSubnetwork {subnetworkId : String}
    (missing : subnetworkMap.lookup subnetworkId = none) :
    (insertSubnetwork subnetworkId).Ensures (Interned cliArgs popped subnetworkMap held)
      (fun key db => Interned cliArgs popped ((subnetworkId, key) :: subnetworkMap) held db)
      (Numbered cliArgs popped) := by
  refine @Session.Ensures.bind _ _ _ _ _ _ _ _ (fun returned db => ∃ key, returned = some key ∧
    Interned cliArgs popped ((subnetworkId, key) :: subnetworkMap) held db) _
    (Session.ensures_statement (fun _ => Interned.toNumbered) ?_) fun returned => ?_
  · intro db returned after interned executed
    split_ifs at executed
    cases executed
    have inserted := interned.insert missing
    exact ⟨⟨_, if_neg (interned.free subnetworkId), inserted⟩, inserted.toNumbered⟩
  · cases returned with
    | some key =>
        apply Session.ensures_pure
        · rintro db ⟨_, ⟨⟩, interned⟩
          exact interned
        · rintro db ⟨_, ⟨⟩, interned⟩
          exact interned.toNumbered
    | none =>
        apply Session.ensures_fail
        rintro db ⟨_, impossible, _⟩
        contradiction

/-- The key found or inserted is that of a stored row, however asking for it ends. -/
theorem ensures_subnetworkKey (cliArgs : CliArgs) (popped : List RpcTransaction)
    (subnetworkMap : SubnetworkMap) (held : List Transaction) (subnetworkId : String) :
    (subnetworkKey subnetworkMap subnetworkId).Ensures
      (Interned cliArgs popped subnetworkMap held)
      (fun found db => Interned cliArgs popped found.2 held db ∧
        ⟨found.1, subnetworkId⟩ ∈ db.subnetworks)
      (Numbered cliArgs popped) := by
  unfold subnetworkKey
  cases known : subnetworkMap.lookup subnetworkId with
  | some key =>
      refine Session.ensures_pure (fun db interned => ⟨interned, ?_⟩) fun _ => Interned.toNumbered
      exact (interned.agrees subnetworkId key).mp known
  | none =>
      refine (ensures_insertSubnetwork known).unwrap.bind fun key =>
        Session.ensures_pure (fun db interned => ⟨interned, ?_⟩) fun _ => Interned.toNumbered
      exact (interned.agrees subnetworkId key).mp List.lookup_cons_self

/-- What an iteration keeps of the tables, the map and the rows held. -/
theorem interned_invariant (cliArgs : CliArgs) (popped : List RpcTransaction) :
    TransactionLoop.IterationInvariant cliArgs (fun transaction => transaction ∈ popped)
      (fun loop => Interned cliArgs popped loop.subnetworkMap loop.transactions)
      (Numbered cliArgs popped) where
  leaves _ _ := Interned.toNumbered
  notes _ _ _ := id
  receives loop forgotten transaction isPopped := by
    refine (ensures_subnetworkKey cliArgs popped _ loop.transactions _).bind fun found => ?_
    obtain ⟨key, subnetworkMap⟩ := found
    simp only
    cases collected : TransactionLoop.collect cliArgs { loop with subnetworkMap } forgotten
        transaction key with
    | none => exact Session.ensures_die fun db holds => holds.1.toNumbered
    | some received =>
        apply Session.ensures_pure
        · rintro db ⟨interned, stored⟩
          obtain ⟨_, _, _, _, ⟨_, rfl⟩ | ⟨rows, mapped, rfl⟩⟩ :=
            TransactionLoop.collect_cases collected
          · exact interned
          · refine ⟨interned.toNumbered, interned.agrees, fun row isHeld => ?_⟩
            rcases List.mem_append.mp isHeld with before | isNew
            · exact interned.heldMapped row before
            · rw [List.mem_singleton.mp isNew]
              exact ⟨transaction, isPopped, key, stored, (mapRows_eq_some_iff.mp mapped).1⟩
        · exact fun db holds => holds.1.toNumbered
  commits loop input := by
    have numbered : ∀ db after, Interned cliArgs popped loop.subnetworkMap loop.transactions db →
        FromBatch loop db after → Numbered cliArgs popped after := by
      intro db after interned fromBatch
      constructor
      · rw [fromBatch.subnetworks]
        exact interned.distinct
      · rw [fromBatch.subnetworks, fromBatch.subnetworksNextId]
        exact interned.fresh
      · rw [fromBatch.subnetworks]
        intro row stored
        exact (fromBatch.transactions row stored).elim (interned.mapped row)
          (interned.heldMapped row)
    apply Session.Keeps.ensures (TransactionLoop.keeps_insertBatch cliArgs loop input)
      (FromBatch.refl loop)
    · intro _ db after interned fromBatch
      refine ⟨numbered db after interned fromBatch, ?_, fun _ none => absurd none List.not_mem_nil⟩
      rw [fromBatch.subnetworks]
      exact interned.agrees
    · exact numbered

/-- A process that starts knows what the processes before it stored. -/
theorem ensures_start (cliArgs : CliArgs) (popped : List RpcTransaction) (now : ℕ) :
    (TransactionLoop.start now).Ensures (Numbered cliArgs popped)
      (fun loop => Interned cliArgs popped loop.subnetworkMap loop.transactions)
      (Numbered cliArgs popped) := by
  have selects : selectSubnetworks.Ensures (Numbered cliArgs popped)
      (fun rows db => Numbered cliArgs popped db ∧ rows = db.subnetworks.rows)
      (Numbered cliArgs popped) := by
    unfold selectSubnetworks
    apply Session.ensures_statement (fun _ => id)
    rintro db _ _ numbered ⟨⟩
    exact ⟨⟨numbered, rfl⟩, numbered⟩
  refine selects.unwrap.bind fun rows => Session.ensures_pure ?_ fun _ => And.left
  rintro db ⟨numbered, rfl⟩
  exact ⟨numbered, agrees_loadSubnetworks numbered.distinct,
    fun _ none => absurd none List.not_mem_nil⟩

end Processor

/-! ## Processors one after another -/

/-- The database, the variables of the transaction processor while it is alive, and what the
processors so far have popped. -/
structure ProcessorWorld where
  db : Db
  loop : Option TransactionLoop
  popped : List RpcTransaction

/-- What happens to the transaction processor. -/
inductive ProcessorEvent where
  /-- A process starts, in place of one that may still be alive. -/
  | start (now : ℕ) (script : Script)
  | iterate (input : TransactionsInput) (script : Script)
  /-- A step of a component that leaves the subnetworks, and may prune transactions. -/
  | other (change : Db → Db) (pruned : Transaction → Bool)

/-- The transactions of a popped block. -/
def TransactionsInput.transactions (input : TransactionsInput) : List RpcTransaction :=
  input.popped.toList.flatMap TransactionData.transactions

namespace ProcessorWorld

/-- Before the first process. -/
def initial : ProcessorWorld :=
  ⟨.empty, none, []⟩

def step (cliArgs : CliArgs) (world : ProcessorWorld) : ProcessorEvent → ProcessorWorld
  | .start now script =>
      match Session.run (TransactionLoop.start now) world.db script with
      | .done loop db _ => ⟨db, some loop, world.popped⟩
      | .failed _ db _ => ⟨db, none, world.popped⟩
      | .killed db => ⟨db, none, world.popped⟩
  | .iterate input script =>
      match world.loop with
      | none => world
      | some loop =>
          match Session.run (loop.iterate cliArgs input) world.db script with
          | .done (after, _) db _ => ⟨db, some after, world.popped ++ input.transactions⟩
          | .failed _ db _ => ⟨db, none, world.popped ++ input.transactions⟩
          | .killed db => ⟨db, none, world.popped ++ input.transactions⟩
  | .other change pruned =>
      { world with
        db := { change world.db with
          subnetworks := world.db.subnetworks
          subnetworksNextId := world.db.subnetworksNextId
          transactions := world.db.transactions.deleteWhere fun row => pruned row = true } }

/-- The tables are as processes leave them, and a process that is alive knows them. -/
def Consistent (cliArgs : CliArgs) (world : ProcessorWorld) : Prop :=
  Numbered cliArgs world.popped world.db ∧ ∀ loop, world.loop = some loop →
    Interned cliArgs world.popped loop.subnetworkMap loop.transactions world.db

theorem consistent_initial (cliArgs : CliArgs) : initial.Consistent cliArgs where
  left := {
    distinct := List.nodup_nil
    fresh row stored := absurd stored (Table.notMem_empty row)
    mapped row stored := absurd stored (Table.notMem_empty row) }
  right _ running := nomatch running

theorem Consistent.step {cliArgs : CliArgs} {world : ProcessorWorld}
    (consistent : world.Consistent cliArgs) (event : ProcessorEvent) :
    (world.step cliArgs event).Consistent cliArgs := by
  obtain ⟨numbered, interned⟩ := consistent
  cases event with
  | start now script =>
      obtain ⟨left, loaded⟩ := ensures_start cliArgs world.popped now world.db script numbered
      simp only [ProcessorWorld.step]
      cases ran : Session.run (TransactionLoop.start now) world.db script with
      | done loop db rest =>
          rw [ran] at left
          refine ⟨left, ?_⟩
          rintro _ ⟨⟩
          exact loaded loop db rest ran
      | failed error db rest =>
          rw [ran] at left
          exact ⟨left, fun _ running => nomatch running⟩
      | killed db =>
          rw [ran] at left
          exact ⟨left, fun _ running => nomatch running⟩
  | iterate input script =>
      simp only [ProcessorWorld.step]
      cases running : world.loop with
      | none => exact ⟨numbered, fun loop alive => interned loop alive⟩
      | some loop =>
          have given : ∀ data, input.popped = some data → ∀ transaction ∈ data.transactions,
              transaction ∈ world.popped ++ input.transactions := by
            intro data isPopped transaction among
            apply List.mem_append_right
            rw [TransactionsInput.transactions, isPopped]
            exact List.mem_flatMap.mpr ⟨data, List.mem_cons_self, among⟩
          obtain ⟨left, kept⟩ :=
            (interned_invariant cliArgs (world.popped ++ input.transactions)).iterate loop input
              given world.db script ((interned loop running).mono input.transactions)
          simp only
          cases ran : Session.run (loop.iterate cliArgs input) world.db script with
          | done result db rest =>
              rw [ran] at left
              refine ⟨left, ?_⟩
              rintro _ ⟨⟩
              exact kept result db rest ran
          | failed error db rest =>
              rw [ran] at left
              exact ⟨left, fun _ running => nomatch running⟩
          | killed db =>
              rw [ran] at left
              exact ⟨left, fun _ running => nomatch running⟩
  | other change pruned =>
      refine ⟨⟨numbered.distinct, numbered.fresh, fun row stored => ?_⟩, fun loop running => ?_⟩
      · exact numbered.mapped row (Table.mem_deleteWhere.mp stored).1
      · have known := interned loop running
        refine ⟨⟨numbered.distinct, numbered.fresh, fun row stored => ?_⟩, known.agrees,
          known.heldMapped⟩
        exact numbered.mapped row (Table.mem_deleteWhere.mp stored).1

end ProcessorWorld

/-! ## The statement -/

/-- Over every run of processors started one after another from an empty database, the ids of
the subnetworks stay distinct, the map agrees with the table whenever a transaction has been
taken, and a stored transaction refers to the row of its own subnetwork. -/
theorem subnetworks_stay_one_to_one (cliArgs : CliArgs) (events : List ProcessorEvent) :
    let world := runFrom (ProcessorWorld.step cliArgs) .initial events
    (world.db.subnetworks.rows.map Subnetwork.subnetworkId).Nodup ∧
      (∀ loop, world.loop = some loop → ∀ forgotten transactions script received db rest,
        Session.run (loop.receiveAll cliArgs forgotten transactions) world.db script =
            .done received db rest →
          ∀ subnetworkId key, received.subnetworkMap.lookup subnetworkId = some key ↔
            ⟨key, subnetworkId⟩ ∈ db.subnetworks) ∧
      ∀ row ∈ world.db.transactions, ∀ key, row.subnetworkId = some key →
        ∃ transaction ∈ world.popped, transaction.transactionId = some row.transactionId ∧
          (VecnoDbMapper.new cliArgs).mapTransaction transaction key = some row ∧
          ⟨key, transaction.subnetworkId⟩ ∈ world.db.subnetworks := by
  intro world
  obtain ⟨numbered, interned⟩ : world.Consistent cliArgs :=
    @invariant_of_run _ _ (ProcessorWorld.step cliArgs) (ProcessorWorld.Consistent cliArgs)
      (fun _ event consistent => consistent.step event) _ events
      (ProcessorWorld.consistent_initial cliArgs)
  refine ⟨numbered.distinct, ?_, ?_⟩
  · intro loop running forgotten transactions script received db rest ran
    have taken := (interned_invariant cliArgs (world.popped ++ transactions)).receiveAll loop
      forgotten (fun _ among => List.mem_append_right world.popped among) world.db script
      ((interned loop running).mono transactions)
    exact (taken.2 received db rest ran).agrees
  · intro row stored key rowKey
    obtain ⟨transaction, isPopped, own, subnetwork, mapped⟩ := numbered.mapped row stored
    obtain ⟨sameId, sameKey⟩ := columns_of_mapTransaction mapped
    obtain rfl := sameKey key rowKey
    exact ⟨transaction, isPopped, sameId, mapped, subnetwork⟩

end VecnoIndexer
