import VecnoIndexer.Sql.Scripts
import VecnoIndexer.Transition.Run
import Mathlib.Data.Finset.Erase
import Mathlib.Data.Finset.Filter
import Mathlib.Data.Finset.Insert

/-!
# The schema

Every start creates the schema unless the version row is there, and drops it before if it
is told to.  Both scripts run statement by statement, outside of a transaction.  The
version row is the second statement of `up.sql`, so a start that is cut off after it
leaves a schema that looks complete.
-/

namespace VecnoIndexer

open VecnoIndexer.Sql
open VecnoIndexer.Transition

/-! ## Tables and indexes -/

/-- The tables of `up.sql`. -/
inductive TableName where
  | vars
  | blocks
  | blockParent
  | subnetworks
  | transactions
  | transactionsAcceptances
  | blocksTransactions
  | transactionsInputs
  | transactionsOutputs
  | addressesTransactions
  | scriptsTransactions
  | balances
  deriving DecidableEq, Repr

/-- The indexes of `up.sql`, by table and columns. -/
inductive IndexName where
  | blocksBlueScore
  | blockParentParentHash
  | transactionsBlockTime
  | transactionsAcceptancesBlockHash
  | blocksTransactionsTransactionId
  | addressesTransactionsBlockTime
  | scriptsTransactionsBlockTime
  | idxBalancesBalanceDesc
  | idxBalancesBalanceAsc
  | idxBalancesAddress
  | idxBalancesNonzero
  deriving DecidableEq, Repr

def IndexName.table : IndexName → TableName
  | blocksBlueScore => .blocks
  | blockParentParentHash => .blockParent
  | transactionsBlockTime => .transactions
  | transactionsAcceptancesBlockHash => .transactionsAcceptances
  | blocksTransactionsTransactionId => .blocksTransactions
  | addressesTransactionsBlockTime => .addressesTransactions
  | scriptsTransactionsBlockTime => .scriptsTransactions
  | idxBalancesBalanceDesc => .balances
  | idxBalancesBalanceAsc => .balances
  | idxBalancesAddress => .balances
  | idxBalancesNonzero => .balances

/-- `up.sql` names the index. An index without a name gets one that is free. -/
def IndexName.isNamed (index : IndexName) : Bool :=
  decide (index.table = .balances)

/-- What exists, and the value of the row `schema_version` of `vars`. -/
@[ext]
structure Schema where
  tables : Finset TableName
  indexes : Finset IndexName
  version : Option String

instance : DecidableEq Schema := fun first second =>
  decidable_of_iff (first.tables = second.tables ∧ first.indexes = second.indexes ∧
    first.version = second.version) Schema.ext_iff.symm

def Schema.empty : Schema where
  tables := ∅
  indexes := ∅
  version := none

/-! ## The scripts -/

/-- A statement of `up.sql` or `down.sql`. -/
inductive Ddl where
  | createTable (table : TableName)
  | createIndex (index : IndexName)
  | insertVersion (version : String)
  | dropTable (table : TableName)
  deriving DecidableEq, Repr

inductive DdlError where
  | unavailable
  | duplicateTable
  | duplicateIndex
  | undefinedTable
  | uniqueViolation
  | rowNotFound
  deriving DecidableEq, Repr

def Ddl.execute (ddl : Ddl) (schema : Schema) : Except DdlError Schema :=
  match ddl with
  | createTable table =>
      if table ∈ schema.tables then .error .duplicateTable
      else .ok { schema with tables := insert table schema.tables }
  | createIndex index =>
      if index.table ∉ schema.tables then .error .undefinedTable
      else if index.isNamed && decide (index ∈ schema.indexes) then .error .duplicateIndex
      else .ok { schema with indexes := insert index schema.indexes }
  | insertVersion version =>
      if .vars ∉ schema.tables then .error .undefinedTable
      else if schema.version.isSome then .error .uniqueViolation
      else .ok { schema with version := some version }
  | dropTable table =>
      .ok {
        tables := schema.tables.erase table
        indexes := schema.indexes.filter fun index => index.table ≠ table
        version := if table = .vars then none else schema.version }

def upSql : List Ddl :=
  [.createTable .vars, .insertVersion "10",
    .createTable .blocks, .createIndex .blocksBlueScore,
    .createTable .blockParent, .createIndex .blockParentParentHash,
    .createTable .subnetworks,
    .createTable .transactions, .createIndex .transactionsBlockTime,
    .createTable .transactionsAcceptances, .createIndex .transactionsAcceptancesBlockHash,
    .createTable .blocksTransactions, .createIndex .blocksTransactionsTransactionId,
    .createTable .transactionsInputs,
    .createTable .transactionsOutputs,
    .createTable .addressesTransactions, .createIndex .addressesTransactionsBlockTime,
    .createTable .scriptsTransactions, .createIndex .scriptsTransactionsBlockTime,
    .createTable .balances, .createIndex .idxBalancesBalanceDesc,
    .createIndex .idxBalancesBalanceAsc, .createIndex .idxBalancesAddress,
    .createIndex .idxBalancesNonzero]

def downSql : List Ddl :=
  [.dropTable .scriptsTransactions, .dropTable .addressesTransactions,
    .dropTable .transactionsInputs, .dropTable .transactionsOutputs,
    .dropTable .blocksTransactions, .dropTable .transactionsAcceptances,
    .dropTable .transactions, .dropTable .subnetworks, .dropTable .blockParent,
    .dropTable .blocks, .dropTable .vars, .dropTable .balances]

/-- Every table and index of `up.sql` exists. -/
def Schema.Complete (schema : Schema) : Prop :=
  ∀ ddl ∈ upSql, match ddl with
    | .createTable table => table ∈ schema.tables
    | .createIndex index => index ∈ schema.indexes
    | _ => True

instance (ddl : Ddl) (schema : Schema) : Decidable (match ddl with
    | .createTable table => table ∈ schema.tables
    | .createIndex index => index ∈ schema.indexes
    | _ => True) :=
  match ddl with
  | .createTable table => inferInstanceAs (Decidable (table ∈ schema.tables))
  | .createIndex index => inferInstanceAs (Decidable (index ∈ schema.indexes))
  | .insertVersion _ => inferInstanceAs (Decidable True)
  | .dropTable _ => inferInstanceAs (Decidable True)

instance (schema : Schema) : Decidable schema.Complete :=
  inferInstanceAs (Decidable (∀ ddl ∈ upSql, _))

/-! ## A start -/

/-- What `create_schema` logs. -/
inductive SchemaReport where
  | upToDate
  | applied
  deriving DecidableEq, Repr

def schemaVersion : ℕ := 10

/-- `str::parse::<u8>` -/
def parseU8 (text : String) : Option ℕ :=
  let digits := match text.toList with
    | '+' :: rest => rest
    | chars => chars
  if digits ≠ [] ∧ digits.all Char.isDigit then
    let value := digits.foldl (fun value digit => 10 * value + (digit.toNat - '0'.toNat)) 0
    if value < 256 then some value else none
  else
    none

/-- `select_var("schema_version")` -/
def selectSchemaVersion : Session DdlError Schema String :=
  Session.statement .unavailable fun schema =>
    if .vars ∉ schema.tables then .error .undefinedTable
    else
      match schema.version with
      | some version => .ok (version, schema)
      | none => .error .rowNotFound

def executeDdl (statements : List Ddl) : Session DdlError Schema Unit :=
  executeEach .unavailable Ddl.execute statements

def createSchema : Session DdlError Schema SchemaReport := do
  match ← selectSchemaVersion.attempt with
  | .ok value =>
      match parseU8 value with
      | some version => if version = schemaVersion then pure .upToDate else Session.die
      | none => Session.die
  | .error _ => do
      executeDdl upSql
      pure .applied

def dropSchema : Session DdlError Schema Unit :=
  executeDdl downSql

/-- The part of `main` before the processing. -/
def prepareSchema (initializeDb : Bool) : Session DdlError Schema SchemaReport := do
  if initializeDb then dropSchema.unwrap else pure ()
  createSchema.unwrap

/-- A start, with what happens to its statements. -/
structure SchemaStart where
  initializeDb : Bool
  script : Script

def Schema.step (schema : Schema) (start : SchemaStart) : Schema :=
  (Session.run (prepareSchema start.initializeDb) schema start.script).state

/-! ## Where a start may be cut off -/

/-- The statement of `down.sql` that drops `vars` is the eleventh. -/
def dropsUpToVars : ℕ := 11

/-- While the version row is there, `down.sql` is not cut off between its first statement
and the one that drops `vars`. -/
def SafeDrop (schema : Schema) (script : Script) : Prop :=
  schema.version ≠ none → script 0 ≠ .succeeds ∨ ∀ n < dropsUpToVars, script n = .succeeds

/-- `up.sql` is not cut off between the version row and its last statement. -/
def SafeCreate (schema : Schema) (script : Script) : Prop :=
  schema.version = none → script 0 = .killed ∨
    script 1 ≠ .succeeds ∨ script 2 ≠ .succeeds ∨ ∀ n < upSql.length, script (1 + n) = .succeeds

/-- The start is not cut off where it would leave the version row without the schema. -/
def SafelyCut (schema : Schema) (start : SchemaStart) : Prop :=
  if start.initializeDb then
    SafeDrop schema start.script ∧
      ((∀ n < downSql.length, start.script n = .succeeds) →
        SafeCreate .empty fun n => start.script (downSql.length + n))
  else
    SafeCreate schema start.script

/-! ## What such starts leave -/

namespace Schema

/-- The schema `up.sql` creates. -/
def created : Schema :=
  applyEach Ddl.execute upSql .empty

/-- What is left when `vars` was dropped but `balances` was not. -/
def balancesLeft : Schema :=
  applyEach Ddl.execute (downSql.take dropsUpToVars) .created

/-- `vars` was created, but not its row. -/
def withVars (schema : Schema) : Schema :=
  applyEach Ddl.execute (upSql.take 1) schema

def settled : List Schema :=
  [.empty, withVars .empty, .created, .balancesLeft, withVars .balancesLeft]

theorem complete_of_settled : ∀ schema ∈ settled, schema.version ≠ none → schema.Complete := by
  decide +kernel

theorem dropped_of_settled : ∀ schema ∈ settled,
    applyEach Ddl.execute (downSql.take dropsUpToVars) schema ∈ settled ∧
      applyEach Ddl.execute downSql schema = .empty := by
  decide +kernel

/-- Without the version row `down.sql` may stop anywhere. -/
theorem partlyDropped_of_settled : ∀ schema ∈ settled, schema.version = none →
    ∀ count ≤ downSql.length, applyEach Ddl.execute (downSql.take count) schema ∈ settled := by
  decide +kernel

theorem created_of_settled : ∀ schema ∈ settled,
    schema.withVars ∈ settled ∧ applyEach Ddl.execute upSql schema ∈ settled := by
  decide +kernel

/-- With the version row `up.sql` does nothing. -/
theorem unchanged_of_settled : ∀ schema ∈ settled, schema.version ≠ none →
    ∀ count ≤ upSql.length, applyEach Ddl.execute (upSql.take count) schema = schema := by
  decide +kernel

end Schema

section Steps

variable {schema : Schema} {script : Script}

/-- A script stops where the database does not execute a statement, or ends by itself. -/
theorem state_executeDdl (statements : List Ddl) (schema : Schema) (script : Script) :
    ∃ count, (∀ n < count, script n = .succeeds) ∧
      ((script count ≠ .succeeds ∧ (Session.run (executeDdl statements) schema script).state =
          applyEach Ddl.execute (statements.take count) schema) ∨
        (Session.run (executeDdl statements) schema script).state =
          applyEach Ddl.execute statements schema) :=
  state_executeEach statements schema script

/-- It stops within its statements. -/
theorem exists_stop (statements : List Ddl) (schema : Schema) (script : Script) :
    ∃ count ≤ statements.length, (Session.run (executeDdl statements) schema script).state =
      applyEach Ddl.execute (statements.take count) schema := by
  obtain ⟨count, _, ⟨_, stopped⟩ | ended⟩ := state_executeDdl statements schema script
  · refine ⟨min count statements.length, min_le_right _ _, ?_⟩
    rw [← List.take_eq_take_min]
    exact stopped
  · exact ⟨statements.length, le_rfl, by rw [List.take_length]; exact ended⟩

/-- The state `down.sql` leaves. -/
theorem state_dropSchema_of_safeDrop (settled : schema ∈ Schema.settled)
    (safe : SafeDrop schema script) :
    (Session.run dropSchema schema script).state ∈ Schema.settled := by
  by_cases versioned : schema.version = none
  · obtain ⟨count, within, stopped⟩ := exists_stop downSql schema script
    rw [dropSchema, stopped]
    exact Schema.partlyDropped_of_settled schema settled versioned count within
  · obtain ⟨dropped, emptied⟩ := Schema.dropped_of_settled schema settled
    have full : applyEach Ddl.execute downSql schema ∈ Schema.settled := by
      rw [emptied]
      exact List.mem_cons_self
    obtain ⟨count, executed, ⟨notExecuted, stopped⟩ | ended⟩ :=
      state_executeDdl downSql schema script
    · rw [dropSchema, stopped]
      rcases safe versioned with first | untilVars
      · have none : count = 0 := by
          by_contra positive
          exact first (executed 0 (Nat.pos_of_ne_zero positive))
        rw [none]
        exact settled
      · have atLeast : dropsUpToVars ≤ count := by
          by_contra fewer
          exact notExecuted (untilVars count (Nat.lt_of_not_le fewer))
        rcases Nat.eq_or_lt_of_le atLeast with isVars | more
        · rw [← isVars]
          exact dropped
        · rw [List.take_of_length_le more]
          exact full
    · rw [dropSchema, ended]
      exact full

/-- The state `up.sql` leaves. -/
theorem state_executeDdl_upSql (script : Script) (settled : schema ∈ Schema.settled)
    (safe : schema.version = none →
      script 0 ≠ .succeeds ∨ script 1 ≠ .succeeds ∨ ∀ n < upSql.length, script n = .succeeds) :
    (Session.run (executeDdl upSql) schema script).state ∈ Schema.settled := by
  by_cases versioned : schema.version = none
  · obtain ⟨withVars, full⟩ := Schema.created_of_settled schema settled
    obtain ⟨count, executed, ⟨notExecuted, stopped⟩ | ended⟩ :=
      state_executeDdl upSql schema script
    · rw [stopped]
      rcases safe versioned with first | second | all
      · have none : count = 0 := by
          by_contra positive
          exact first (executed 0 (Nat.pos_of_ne_zero positive))
        rw [none]
        exact settled
      · have atMost : count ≤ 1 := by
          by_contra more
          exact second (executed 1 (Nat.lt_of_not_le more))
        rcases Nat.le_one_iff_eq_zero_or_eq_one.mp atMost with rfl | rfl
        · exact settled
        · exact withVars
      · have everything : upSql.length ≤ count := by
          by_contra fewer
          exact notExecuted (all count (Nat.lt_of_not_le fewer))
        rw [List.take_of_length_le everything]
        exact full
    · rw [ended]
      exact full
  · obtain ⟨count, within, stopped⟩ := exists_stop upSql schema script
    rw [stopped, Schema.unchanged_of_settled schema settled versioned count within]
    exact settled

/-- The version is read, or the error is not looked at. -/
theorem run_selectSchemaVersion_cases (schema : Schema) (script : Script) :
    Session.run selectSchemaVersion.attempt schema script = .killed schema ∨
      ∃ result, Session.run selectSchemaVersion.attempt schema script =
          .done result schema script.tail ∧
        ∀ version, result = .ok version → schema.version = some version := by
  rw [Session.run_attempt]
  unfold selectSchemaVersion
  rw [Session.run_statement]
  cases script 0 with
  | succeeds =>
      by_cases created : TableName.vars ∈ schema.tables
      · simp only [created, not_true_eq_false, if_false]
        cases versioned : schema.version with
        | none => exact Or.inr ⟨_, rfl, fun _ impossible => by contradiction⟩
        | some found =>
            refine Or.inr ⟨_, rfl, ?_⟩
            rintro version ⟨⟩
            rfl
      · simp only [created, not_false_eq_true, if_true]
        exact Or.inr ⟨_, rfl, fun _ impossible => by contradiction⟩
  | fails => exact Or.inr ⟨_, rfl, fun _ impossible => by contradiction⟩
  | killed => exact Or.inl rfl

theorem state_createSchema (settled : schema ∈ Schema.settled)
    (safe : SafeCreate schema script) :
    (Session.run createSchema schema script).state ∈ Schema.settled := by
  unfold createSchema
  rw [Session.run_bind]
  rcases run_selectSchemaVersion_cases schema script with killed | ⟨result, ran, _⟩
  · rw [killed]
    exact settled
  · rw [ran]
    cases result with
    | ok value =>
        simp only
        split
        · split_ifs
          · exact settled
          · exact settled
        · exact settled
    | error error =>
        simp only
        rw [Session.state_bind fun _ _ _ => rfl]
        refine state_executeDdl_upSql script.tail settled fun versioned => ?_
        rcases safe versioned with killed | first | second | all
        · rw [Session.run_attempt, selectSchemaVersion, Session.run_statement, killed] at ran
          contradiction
        · exact Or.inl first
        · exact Or.inr (Or.inl second)
        · refine Or.inr (Or.inr fun n below => ?_)
          rw [Script.tail, Nat.add_comm]
          exact all n below

/-- The step lemma. -/
theorem settled_step {start : SchemaStart} (settled : schema ∈ Schema.settled)
    (safe : SafelyCut schema start) : schema.step start ∈ Schema.settled := by
  obtain ⟨initializeDb, script⟩ := start
  unfold Schema.step prepareSchema
  cases initializeDb with
  | false =>
      change (Session.run createSchema.unwrap schema script).state ∈ Schema.settled
      rw [Session.state_unwrap]
      exact state_createSchema settled safe
  | true =>
      obtain ⟨safeDrop, safeCreate⟩ := safe
      have dropped := state_dropSchema_of_safeDrop settled safeDrop
      change (Session.run (dropSchema.unwrap >>= fun _ => createSchema.unwrap) schema script).state
        ∈ Schema.settled
      rw [Session.run_bind, Session.run_unwrap]
      cases ran : Session.run dropSchema schema script with
      | done value final rest =>
          obtain ⟨executed, finalEq, restEq⟩ := done_executeEach ran
          rw [(Schema.dropped_of_settled schema settled).2] at finalEq
          simp only
          rw [Session.state_unwrap, finalEq, funext restEq]
          exact state_createSchema List.mem_cons_self (safeCreate executed)
      | failed error final rest =>
          rw [ran] at dropped
          exact dropped
      | killed final =>
          rw [ran] at dropped
          exact dropped

/-- A start that finds the schema up to date has read the version row. -/
theorem version_of_upToDate {initializeDb : Bool} {final : Schema} {rest : Script}
    (settled : schema ∈ Schema.settled)
    (ran : Session.run (prepareSchema initializeDb) schema script =
      .done .upToDate final rest) : final ∈ Schema.settled ∧ final.version ≠ none := by
  have reads : ∀ {found : Schema} {left : Script},
      Session.run createSchema.unwrap found left = .done .upToDate final rest →
        final = found ∧ found.version ≠ none := by
    intro found left createRan
    obtain ⟨result, middle, later, selectRan, createRan⟩ :=
      Session.done_of_run_bind (Session.done_of_run_unwrap createRan)
    rcases run_selectSchemaVersion_cases found left with killed | ⟨other, read, isVersion⟩
    · rw [killed] at selectRan
      contradiction
    · cases read.symm.trans selectRan
      cases result with
      | error error =>
          obtain ⟨_, _, _, _, applied⟩ := Session.done_of_run_bind createRan
          cases applied
      | ok value =>
          simp only at createRan
          have versioned : found.version ≠ none := by
            rw [isVersion value rfl]
            exact Option.some_ne_none value
          split at createRan
          · split_ifs at createRan
            · cases createRan
              exact ⟨rfl, versioned⟩
            · cases createRan
          · cases createRan
  cases initializeDb with
  | false =>
      obtain ⟨rfl, versioned⟩ := reads ran
      exact ⟨settled, versioned⟩
  | true =>
      change Session.run (dropSchema.unwrap >>= fun _ => createSchema.unwrap) schema script =
        _ at ran
      obtain ⟨_, _, _, dropRan, createRan⟩ := Session.done_of_run_bind ran
      obtain ⟨rfl, versioned⟩ := reads createRan
      obtain ⟨_, rfl, _⟩ := done_executeEach (Session.done_of_run_unwrap dropRan)
      rw [(Schema.dropped_of_settled schema settled).2] at versioned
      exact absurd rfl versioned

end Steps

/-- After starts that are cut off safely, a start that finds the schema up to date finds
all of it. -/
theorem complete_of_upToDate {starts : List SchemaStart}
    (safe : Along Schema.step SafelyCut .empty starts) (later : SchemaStart) {final : Schema}
    {rest : Script}
    (upToDate : Session.run (prepareSchema later.initializeDb)
      (runFrom Schema.step .empty starts) later.script = .done .upToDate final rest) :
    final.Complete := by
  have settled : runFrom Schema.step .empty starts ∈ Schema.settled :=
    @invariant_of_along _ _ Schema.step SafelyCut (fun schema => schema ∈ Schema.settled)
      (fun _ _ held safelyCut => settled_step held safelyCut) _ _ List.mem_cons_self safe
  obtain ⟨finalSettled, versioned⟩ := version_of_upToDate settled upToDate
  exact Schema.complete_of_settled final finalSettled versioned

/-! ## Plain starts -/

def plainStart : SchemaStart where
  initializeDb := false
  script := fun _ => .succeeds

theorem plainStart_safelyCut (schema : Schema) : SafelyCut schema plainStart :=
  fun _ => Or.inr (Or.inr (Or.inr fun _ _ => rfl))

/-- It reads the version row, if there is one. -/
theorem plainStart_upToDate {schema : Schema} (created : .vars ∈ schema.tables)
    (versioned : schema.version = some "10") :
    Session.run (prepareSchema plainStart.initializeDb) schema plainStart.script =
      .done .upToDate schema plainStart.script.tail := by
  have read : Session.run selectSchemaVersion schema plainStart.script =
      .done "10" schema plainStart.script.tail := by
    rw [selectSchemaVersion, Session.run_statement]
    simp only [plainStart, created, versioned, not_true_eq_false, if_false]
  change Session.run createSchema.unwrap schema plainStart.script = _
  rw [Session.run_unwrap, createSchema, Session.run_bind, Session.run_attempt, read]
  rfl

/-- The second of two plain starts finds the schema up to date. -/
theorem plainStart_complete : (runFrom Schema.step .empty [plainStart]).Complete :=
  complete_of_upToDate
    (show Along Schema.step SafelyCut .empty [plainStart] from
      And.intro (plainStart_safelyCut _) trivial)
    plainStart (plainStart_upToDate (by decide +kernel) (by decide +kernel))

/-! ## A start cut off after the version row -/

/-- The process dies after some statements. -/
def diesAfter (count : ℕ) : Script :=
  fun n => if n < count then .succeeds else .killed

/-- The version is asked for, and two statements of `up.sql` are executed. -/
def cutStart : SchemaStart where
  initializeDb := false
  script := diesAfter 3

/-- The next start reports that the schema is up to date, and there are no tables but one. -/
theorem cutStart_not_complete :
    ∃ final rest, Session.run (prepareSchema plainStart.initializeDb)
        (runFrom Schema.step .empty [cutStart]) plainStart.script = .done .upToDate final rest ∧
      final.tables = {.vars} ∧ ¬ final.Complete := by
  refine ⟨runFrom Schema.step .empty [cutStart], plainStart.script.tail, ?_, ?_, ?_⟩
  · rfl
  · decide +kernel
  · decide +kernel

end VecnoIndexer
