import VecnoIndexer.Startup.Choices

/-!
# The balance baseline of a start

A start that truncates the balances issues statements before, during and after the import that
follows, and it may be cut at any of them.  The truncation leaves the saved checkpoint as it was;
a rebuild saves the pruning point only after its import, however that ended, and a forced import
leaves the saved checkpoint for good.  So from the truncation on a saved block is paired with the
balances of another set, and it is only without one that the balances belong to the checkpoint:
if the import was complete.
-/

namespace VecnoIndexer

open VecnoIndexer.Sql
open VecnoIndexer.Collections

/-! ## Which starts truncate -/

section Truncates

variable (cliArgs : CliArgs) (env : ImportEnv) (input : StartupInput) (db : Db)

/-- Without a rebuild, a set is imported by option over a checkpoint that is
resumed, and its first round truncates. -/
def truncatesByImport : Bool :=
  (db.persistedCheckpoint.bind Hash.fromStr).isSome &&
    truncatesBefore cliArgs env input (cliArgs.isEnabled .forceUtxoImport)

def truncates : Bool :=
  rebuilds cliArgs input db || truncatesByImport cliArgs env input db

/-- The rounds of the import that follows the truncation. -/
def usedRounds : List ImportRound :=
  if rebuilds cliArgs input db then input.rebuildRounds else input.importRounds

/-- The statements before the truncation: a rebuild truncates when it is decided; otherwise the
checkpoint is read to decide and to choose, and saved. -/
def statementsBefore : ℕ :=
  if rebuilds cliArgs input db then
    if cliArgs.forceBalanceRebuild then 0 else loadStatements db
  else
    loadStatements db + (loadStatements db + 1)

/-- The balances are truncated before the start is cut. -/
def HasTruncated (script : Script) : Prop :=
  truncates cliArgs env input db = true ∧ script.Executes (statementsBefore cliArgs input db + 1)

end Truncates

/-! ## The baseline -/

/-- What the checkpoints of a start are, in the database and handed over. -/
def HasCheckpoint (result : Exec SqlError Db Startup) (text : String) : Prop :=
  result.state.persistedCheckpoint = some text ∨
    ∃ startup db rest, result = .done startup db rest ∧ startup.previousCheckpoint = text

/-- From the truncation on, whatever block is a checkpoint, the balances are the sums of its UTXO
set; without a truncation, balances and checkpoint are unchanged. -/
structure Baseline (cliArgs : CliArgs) (env : ImportEnv) (utxoSet : Hash → List Utxo)
    (input : StartupInput) (before : Db) (script : Script) : Prop where
  paired : HasTruncated cliArgs env input before script → ∀ text block,
    HasCheckpoint (Session.run (startProcessing cliArgs env input) before script) text →
    Hash.fromStr text = some block → ∀ address,
    (Session.run (startProcessing cliArgs env input) before script).state.balanceOf address =
      utxoBalance cliArgs env (utxoSet block) address
  unchanged : ¬ HasTruncated cliArgs env input before script →
    (Session.run (startProcessing cliArgs env input) before script).state.balances =
        before.balances ∧
      (Session.run (startProcessing cliArgs env input) before script).state.persistedCheckpoint =
        before.persistedCheckpoint

/-- What the import that follows the truncation pays an address: the pruning point's set, if an
attempt is answered to its end. -/
def importedBalance (cliArgs : CliArgs) (env : ImportEnv) (utxoSet : Hash → List Utxo)
    (input : StartupInput) (db : Db) (address : String) : Int :=
  match importEnd cliArgs env (usedRounds cliArgs input db) with
  | .received _ => utxoBalance cliArgs env (utxoSet input.pruningPointHash) address
  | .overflow | .cutOff => 0

/-- When a start that truncates keeps the baseline: no block is saved, apart from one whose set
pays nothing as long as the import does not, and a rebuild imports the whole set it saves as the
checkpoint, unless the import ends the process. -/
structure ImportsResumed (cliArgs : CliArgs) (env : ImportEnv) (utxoSet : Hash → List Utxo)
    (input : StartupInput) (db : Db) : Prop where
  saved : ∀ block, db.persistedCheckpoint.bind Hash.fromStr = some block → ∀ address,
    utxoBalance cliArgs env (utxoSet block) address = 0 ∧
      importedBalance cliArgs env utxoSet input db address = 0
  rebuilt : rebuilds cliArgs input db = true →
    importEnd cliArgs env (usedRounds cliArgs input db) ≠ .overflow → ∀ address,
    importedBalance cliArgs env utxoSet input db address =
      utxoBalance cliArgs env (utxoSet input.pruningPointHash) address

/-! ## What follows the import -/

section Parts

variable {cliArgs : CliArgs} {env : ImportEnv} {input : StartupInput} {db : Db}

/-- After the import the balances stay. The checkpoint does too, until a rebuild saves the pruning
point. -/
structure HandsOver (cliArgs : CliArgs) (input : StartupInput) (db : Db)
    (next : DbM Startup) : Prop where
  staysDown : next.StaysDown
  balances : ∀ (imported : Db) (script : Script), script.Unfailing →
    imported.persistedCheckpoint = db.persistedCheckpoint →
    (Session.run next imported script).state.balances = imported.balances
  checkpoints : ∀ (imported : Db) (script : Script), script.Unfailing →
    imported.persistedCheckpoint = db.persistedCheckpoint →
    ∀ text, HasCheckpoint (Session.run next imported script) text →
      db.persistedCheckpoint = some text ∨
        rebuilds cliArgs input db = true ∧ text = input.pruningPointHash.encode
  rebuilt : rebuilds cliArgs input db = true → ∀ (imported : Db) (script : Script), script.Up →
    (Session.run next imported script).state.persistedCheckpoint =
      some input.pruningPointHash.encode

/-- What a rebuild does after its import. -/
def afterRebuild (cliArgs : CliArgs) (env : ImportEnv) (input : StartupInput) : DbM Startup := do
  let _logged ← (saveCheckpoint input.pruningPointHash.encode).attempt
  let (previousCheckpoint, checkpoint, utxoSetImport) ← chooseCheckpoint cliArgs input false
  startFrom cliArgs env input previousCheckpoint checkpoint utxoSetImport

theorem rebuildIf_eq {next : Bool → DbM Startup} :
    (rebuildIf cliArgs env input true >>= next) =
      truncateBalances.unwrap >>= fun _ => importUtxoSet cliArgs env input.rebuildRounds >>=
        fun _ => (saveCheckpoint input.pruningPointHash.encode).attempt >>=
          fun _ => next false := by
  simp only [rebuildIf, if_true, rebuildBalances, Session.bind_assoc, Session.pure_bind]

/-- Cut before its save a rebuild leaves what it imported, and from there on the pruning point is
the checkpoint. -/
theorem run_afterRebuild (notIgnored : cliArgs.ignoreCheckpoint = none) {imported : Db}
    {script : Script} (unfailing : script.Unfailing) :
    (¬ script.Executes 1 ∧
      Session.run (afterRebuild cliArgs env input) imported script = .killed imported) ∨
    ((Session.run (afterRebuild cliArgs env input) imported script).state.persistedCheckpoint =
        some input.pruningPointHash.encode ∧
      (Session.run (afterRebuild cliArgs env input) imported script).state.balances =
        imported.balances ∧
      ∀ startup final rest, Session.run (afterRebuild cliArgs env input) imported script =
        .done startup final rest → startup.previousCheckpoint = input.pruningPointHash.encode) := by
  have saves := (takes_saveCheckpoint input.pruningPointHash.encode imported).attempt
  have persisted := persistedCheckpoint_withCheckpoint imported input.pruningPointHash.encode
  unfold afterRebuild
  by_cases executes : script.Executes 1
  · right
    rw [Session.run_bind_of_done ((saves script unfailing).1 executes)]
    have chooses : (chooseCheckpoint cliArgs input false).Takes _ _ _ _ _ :=
      takes_chooseCheckpoint notIgnored persisted (Hash.fromStr_encode _) false
    rcases chooses.reads (script.after 1) (unfailing.after 1) with killed | ⟨rest, _, chosen⟩
    · rw [Session.run_bind, killed]
      refine ⟨persisted, rfl, ?_⟩
      rintro _ _ _ ⟨⟩
    · rw [Session.run_bind_of_done chosen]
      have notTruncated : truncatesBefore cliArgs env input false = false := by
        simp [truncatesBefore]
      have keeps : (startFrom cliArgs env input input.pruningPointHash.encode
          input.pruningPointHash false).Keeps _ :=
        keeps_startFrom notTruncated imported.balances
      obtain ⟨kept, balances⟩ := keeps _ rest ⟨persisted, rfl⟩
      exact ⟨kept, balances, fun startup final left ran => previousCheckpoint_of_startFrom ran⟩
  · obtain ⟨left, killed, rfl⟩ := (saves script unfailing).2 executes
    exact Or.inl ⟨executes, by rw [Session.run_bind, killed]⟩

theorem handsOver_afterRebuild (notIgnored : cliArgs.ignoreCheckpoint = none)
    (rebuild : rebuilds cliArgs input db = true) :
    HandsOver cliArgs input db (afterRebuild cliArgs env input) where
  staysDown := by
    refine (staysDown_saveCheckpoint _).attempt.bind fun _ => ?_
    exact (staysDown_chooseCheckpoint notIgnored false).bind fun chosen =>
      staysDown_startFrom _ _ _
  balances imported script unfailing _ := by
    rcases @run_afterRebuild cliArgs env input notIgnored imported script unfailing with
      ⟨_, killed⟩ | ⟨_, balances, _⟩
    · rw [killed]
      rfl
    · exact balances
  checkpoints imported script unfailing same text isCheckpoint := by
    rcases @run_afterRebuild cliArgs env input notIgnored imported script unfailing with
      ⟨_, killed⟩ | ⟨persisted, _, handed⟩
    · left
      rw [killed] at isCheckpoint
      rcases isCheckpoint with persisted | ⟨_, _, _, ran, _⟩
      · exact same.symm.trans persisted
      · contradiction
    · refine Or.inr ⟨rebuild, ?_⟩
      rcases isCheckpoint with isPersisted | ⟨startup, final, rest, ran, rfl⟩
      · exact Option.some.inj (isPersisted.symm.trans persisted)
      · exact handed startup final rest ran
  rebuilt _ imported script up := by
    rcases @run_afterRebuild cliArgs env input notIgnored imported script up.unfailing with
      ⟨notExecuted, _⟩ | ⟨persisted, _⟩
    · exact absurd (fun n _ => up n) notExecuted
    · exact persisted

/-- After a forced import the saved checkpoint is handed over. -/
theorem handsOver_pure (noRebuild : rebuilds cliArgs input db = false) {startup : Startup}
    (saved : db.persistedCheckpoint = some startup.previousCheckpoint) :
    HandsOver cliArgs input db (pure startup) where
  staysDown := Session.staysDown_pure startup
  balances _ _ _ _ := rfl
  checkpoints imported script _ same text isCheckpoint := by
    left
    rcases isCheckpoint with persisted | ⟨_, _, _, ran, rfl⟩
    · exact same.symm.trans persisted
    · cases ran
      exact saved
  rebuilt rebuild := by
    rw [noRebuild] at rebuild
    contradiction

/-! ## Up to the truncation -/

/-- What is left where nothing is truncated yet. -/
def SamePair (db left : Db) : Prop :=
  left.balances = db.balances ∧ left.persistedCheckpoint = db.persistedCheckpoint

/-- The rest of the import of a start, and what follows it. -/
def importRest (cliArgs : CliArgs) (env : ImportEnv) (input : StartupInput) (db : Db)
    (statements : List ImportStatement) (next : DbM Startup) : DbM Startup :=
  (attemptEach .unavailable (ImportStatement.effect cliArgs env) statements >>= fun _ =>
    (importEnd cliArgs env (usedRounds cliArgs input db)).complete cliArgs env) >>= fun _ => next

/-- A start changes nothing before its truncation. Then the balances are empty, and it goes on with
the rest of its import. -/
structure ImportAhead (cliArgs : CliArgs) (env : ImportEnv) (input : StartupInput)
    (db emptied : Db) (statements : List ImportStatement) (next : DbM Startup) : Prop where
  empty : emptied.balances = .empty
  same : emptied.persistedCheckpoint = db.persistedCheckpoint
  hands : HandsOver cliArgs input db next
  leads : (startProcessing cliArgs env input).Leads db (statementsBefore cliArgs input db + 1)
    (importRest cliArgs env input db statements next) emptied (SamePair db)

theorem SamePair.of_eq {left : Db} (same : left = db) : SamePair db left := by
  subst same
  exact ⟨rfl, rfl⟩

/-- A rebuild truncates when it is decided. -/
theorem importAhead_of_rebuilds (env : ImportEnv) (notIgnored : cliArgs.ignoreCheckpoint = none)
    (rebuild : rebuilds cliArgs input db = true) :
    ImportAhead cliArgs env input db { db with balances := .empty }
      (importStatements cliArgs env input.rebuildRounds) (afterRebuild cliArgs env input) where
  empty := rfl
  same := rfl
  hands := handsOver_afterRebuild notIgnored rebuild
  leads := by
    have decides := rebuild ▸ takes_decideRebuild cliArgs input db
    have empties : truncateBalances.unwrap.Takes db 1 () { db with balances := .empty }
        (· = db) := by
      unfold truncateBalances
      exact Session.Takes.unwrap (Session.takes_statement rfl rfl)
    rw [importRest, usedRounds, statementsBefore, rebuild, if_pos rfl, if_pos rfl,
      ← importUtxoSet_eq]
    refine Session.Leads.mono ((decides.leads _).trans ?_) fun _ => SamePair.of_eq
    rw [rebuildIf_eq]
    exact empties.leads _

/-- A forced import truncates after the saved checkpoint is saved again. -/
theorem exists_importAhead_of_truncatesByImport (env : ImportEnv)
    (notIgnored : cliArgs.ignoreCheckpoint = none) (rebuild : rebuilds cliArgs input db = false)
    (truncated : truncatesByImport cliArgs env input db = true) :
    ∃ emptied statements next,
      ImportAhead cliArgs env input db emptied statements next := by
  rw [truncatesByImport, Bool.and_eq_true, truncatesBefore, Bool.and_eq_true,
    Bool.and_eq_true] at truncated
  obtain ⟨isBlock, ⟨connected, importing⟩, imports⟩ := truncated
  obtain ⟨hash, resumed⟩ := Option.isSome_iff_exists.mp isBlock
  obtain ⟨saved, persisted, parsed⟩ := Option.bind_eq_some_iff.mp resumed
  obtain ⟨later, issued⟩ := exists_importStatements_eq imports
  have decides := rebuild ▸ takes_decideRebuild cliArgs input db
  have notForced : cliArgs.forceBalanceRebuild = false := by
    rw [rebuilds, Bool.or_eq_false_iff] at rebuild
    exact rebuild.1
  have chooses : (chooseCheckpoint cliArgs input true).Takes db _ _ _ _ :=
    takes_chooseCheckpoint notIgnored persisted parsed true
  have saves := (takes_saveCheckpoint saved db).attempt
  have empties : (statement fun state => .ok ((),
      ImportStatement.effect cliArgs env .truncate state)).attempt.Takes
      (db.withCheckpoint saved) 1 (.ok ()) { db.withCheckpoint saved with balances := .empty }
      (· = db.withCheckpoint saved) :=
    Session.Takes.attempt (Session.takes_statement rfl rfl)
  have checkpoint := persistedCheckpoint_withCheckpoint db saved
  refine ⟨{ db.withCheckpoint saved with balances := .empty }, later, pure {
    previousCheckpoint := saved
    checkpoint := hash
    disableVcpWaitForSync := cliArgs.isDisabled .vcpWaitForSync || true }, rfl,
    checkpoint.trans persisted.symm, handsOver_pure rebuild persisted, ?_⟩
  rw [importRest, usedRounds, statementsBefore, rebuild, if_neg Bool.false_ne_true,
    if_neg Bool.false_ne_true, Nat.add_assoc, Nat.add_assoc]
  rw [notForced, if_neg Bool.false_ne_true] at decides
  refine ((decides.leads _).mono fun _ => SamePair.of_eq).trans ?_
  change (chooseCheckpoint cliArgs input (cliArgs.isEnabled .forceUtxoImport) >>=
    _).Leads _ _ _ _ _
  rw [importing]
  refine ((chooses.leads _).mono fun _ => SamePair.of_eq).trans ?_
  refine ((saves.leads _).mono fun _ => SamePair.of_eq).trans ?_
  rw [connected]
  simp only [if_true, importIf]
  rw [importUtxoSet_eq, issued]
  simp only [attemptEach, Session.bind_assoc]
  refine (empties.leads _).mono ?_
  rintro left rfl
  exact ⟨rfl, checkpoint.trans persisted.symm⟩

/-- A start that truncates is a rebuild or a forced import. -/
theorem exists_importAhead (env : ImportEnv) (notIgnored : cliArgs.ignoreCheckpoint = none)
    (truncated : truncates cliArgs env input db = true) :
    ∃ emptied statements next,
      ImportAhead cliArgs env input db emptied statements next := by
  cases rebuild : rebuilds cliArgs input db with
  | true => exact ⟨_, _, _, importAhead_of_rebuilds env notIgnored rebuild⟩
  | false =>
      rw [truncates, rebuild, Bool.false_or] at truncated
      exact exists_importAhead_of_truncatesByImport env notIgnored rebuild truncated

/-- A start that truncates nothing leaves balances and checkpoint as they were. -/
theorem unchanged_of_not_truncates (env : ImportEnv) (notIgnored : cliArgs.ignoreCheckpoint = none)
    (notTruncated : truncates cliArgs env input db = false) {script : Script}
    (unfailing : script.Unfailing) :
    SamePair db (Session.run (startProcessing cliArgs env input) db script).state := by
  obtain ⟨noRebuild, noImport⟩ := Bool.or_eq_false_iff.mp notTruncated
  -- Without a saved checkpoint the balances are rebuilt.
  obtain ⟨saved, persisted⟩ : ∃ saved, db.persistedCheckpoint = some saved := by
    cases persisted : db.persistedCheckpoint with
    | none => simp [rebuilds, persisted] at noRebuild
    | some saved => exact ⟨saved, rfl⟩
  cases parsed : Hash.fromStr saved with
  | none =>
      rw [startProcessing_of_invalid env notIgnored noRebuild persisted parsed unfailing]
      exact ⟨rfl, rfl⟩
  | some hash =>
      rcases startProcessing_resumes env notIgnored noRebuild persisted parsed unfailing with
        killed | ⟨rest, started⟩
      · rw [killed]
        exact ⟨rfl, rfl⟩
      · have notBefore : truncatesBefore cliArgs env input (cliArgs.isEnabled .forceUtxoImport) =
            false := by
          simpa [truncatesByImport, persisted, parsed] using noImport
        have keeps : (startFrom cliArgs env input saved hash
            (cliArgs.isEnabled .forceUtxoImport)).Keeps _ := keeps_startFrom notBefore db.balances
        obtain ⟨kept, balances⟩ := keeps db rest ⟨persisted, rfl⟩
        rw [started]
        exact ⟨balances, kept.trans persisted.symm⟩

end Parts

/-! ## When the baseline is kept -/

/-- The peers answer to the end only with the whole UTXO set of the pruning point. -/
def Serves (utxoSet : Hash → List Utxo) (pruningPointHash : Hash) (rounds : List ImportRound) :
    Prop :=
  ∀ round ∈ rounds, ∀ pairs, receivedSet 0 round.events = some pairs →
    pairs.Perm (utxoSet pruningPointHash)

section Theorem

variable {cliArgs : CliArgs} {env : ImportEnv} {utxoSet : Hash → List Utxo}
  {input : StartupInput} {db : Db}

theorem exists_of_importedSet {rounds : List ImportRound} {pairs : List Utxo}
    (imported : importedSet cliArgs env rounds = some pairs) :
    ∃ round ∈ rounds, receivedSet 0 round.events = some pairs := by
  induction rounds with
  | nil => contradiction
  | cons round rest ih =>
      have later : importedSet cliArgs env rest = some pairs →
          ∃ other ∈ round :: rest, receivedSet 0 other.events = some pairs := by
        intro inRest
        obtain ⟨other, otherMem, received⟩ := ih inRest
        exact ⟨other, List.mem_cons_of_mem round otherMem, received⟩
      rw [importedSet] at imported
      split at imported
      · contradiction
      · split at imported
        · split at imported
          · rename_i received
            cases imported
            exact ⟨round, List.mem_cons_self, received⟩
          · exact later imported
        · exact later imported

/-- The totals of an import are what it pays. -/
theorem entrySum_importedTotals
    (serves : Serves utxoSet input.pruningPointHash (usedRounds cliArgs input db))
    (fits : ∀ address, InI64 (utxoBalance cliArgs env (utxoSet input.pruningPointHash) address))
    (address : String) :
    entrySum (importedTotals cliArgs env (usedRounds cliArgs input db)) address =
      importedBalance cliArgs env utxoSet input db address := by
  have receives := @receives_importEnd cliArgs env (usedRounds cliArgs input db)
  unfold importedTotals importedBalance
  cases ended : importEnd cliArgs env (usedRounds cliArgs input db) with
  | overflow => rfl
  | cutOff => rfl
  | received allBalances =>
      rw [ended] at receives
      obtain ⟨pairs, imported, added⟩ := receives
      obtain ⟨round, roundMem, received⟩ := exists_of_importedSet imported
      have same := @utxoBalance_perm cliArgs env _ _ (serves round roundMem pairs received) address
      have fit := fits address
      rw [← same] at fit
      dsimp only
      rw [← drainedTotals_eq added, (sumsOf_drainedTotals added).sum, ← same]
      exact (entrySum_balanceDeltas_eq_iff pairs address).mpr (inI64_amount_of_utxoBalance fit)

/-- A checkpoint of a run that is cut is a saved one. -/
theorem persisted_of_hasCheckpoint {result : Exec SqlError Db Startup} {text : String}
    (isCheckpoint : HasCheckpoint result text)
    (notDone : ∀ startup final rest, result ≠ .done startup final rest) :
    result.state.persistedCheckpoint = some text := by
  rcases isCheckpoint with persisted | ⟨startup, final, rest, ran, _⟩
  · exact persisted
  · exact absurd ran (notDone startup final rest)

/-- Wherever the rest of an import is cut, its checkpoint is the saved one, with balances of
nothing or of what is imported, or it is the pruning point of a rebuild, with what is imported. -/
theorem ImportAhead.checkpoint_cases {emptied : Db} {statements : List ImportStatement}
    {next : DbM Startup} (ahead : ImportAhead cliArgs env input db emptied statements next)
    (serves : Serves utxoSet input.pruningPointHash (usedRounds cliArgs input db))
    (fits : ∀ address, InI64 (utxoBalance cliArgs env (utxoSet input.pruningPointHash) address))
    {rest : Script} (unfailing : rest.Unfailing) {text : String}
    (isCheckpoint : HasCheckpoint
      (Session.run (importRest cliArgs env input db statements next) emptied rest) text)
    (address : String) :
    (db.persistedCheckpoint = some text ∧
      ((Session.run (importRest cliArgs env input db statements next) emptied
          rest).state.balanceOf address = 0 ∨
        (Session.run (importRest cliArgs env input db statements next) emptied
          rest).state.balanceOf address =
            importedBalance cliArgs env utxoSet input db address)) ∨
    ((rebuilds cliArgs input db = true ∧
        importEnd cliArgs env (usedRounds cliArgs input db) ≠ .overflow) ∧
      text = input.pruningPointHash.encode ∧
      (Session.run (importRest cliArgs env input db statements next) emptied
        rest).state.balanceOf address = importedBalance cliArgs env utxoSet input db address) := by
  have totals := entrySum_importedTotals serves fits
  unfold importRest at isCheckpoint ⊢
  by_cases overflow : importEnd cliArgs env (usedRounds cliArgs input db) = .overflow
  · -- The process ends before anything is written to the empty balances.
    have dies : ((attemptEach .unavailable (ImportStatement.effect cliArgs env) statements
        >>= fun _ => (importEnd cliArgs env (usedRounds cliArgs input db)).complete cliArgs env)
          >>= fun _ => next) =
        attemptEach .unavailable (ImportStatement.effect cliArgs env) statements >>= fun _ =>
          Session.die := by
      rw [Session.bind_assoc, overflow]
      rfl
    rw [dies] at isCheckpoint ⊢
    obtain ⟨vars, balances⟩ := keeps_importFromEmpty statements emptied rest ⟨rfl, ahead.empty⟩
    have persisted := persisted_of_hasCheckpoint isCheckpoint fun startup final left ran => by
      obtain ⟨_, _, _, _, died⟩ := Session.done_of_run_bind ran
      contradiction
    have leftSame := (persistedCheckpoint_congr vars).trans ahead.same
    refine Or.inl ⟨leftSame.symm.trans persisted, Or.inl ?_⟩
    rw [Db.balanceOf, balances]
    rfl
  · obtain ⟨count, after, takes, imported⟩ :=
      takes_importFromEmpty statements overflow ahead.empty
    by_cases all : rest.Executes count
    · have afterSame := (persistedCheckpoint_congr imported.1).trans ahead.same
      rw [Session.run_bind_of_done ((takes rest unfailing).1 all)] at isCheckpoint ⊢
      have balance : (Session.run next after (rest.after count)).state.balanceOf address =
          importedBalance cliArgs env utxoSet input db address := by
        rw [Db.balanceOf, ahead.hands.balances after _ (unfailing.after count) afterSame]
        change after.balanceOf address = _
        rw [imported.balanceOf, totals]
      rcases ahead.hands.checkpoints after _ (unfailing.after count) afterSame text
        isCheckpoint with persisted | ⟨rebuild, isPruningPoint⟩
      · exact Or.inl ⟨persisted, Or.inr balance⟩
      · exact Or.inr ⟨⟨rebuild, overflow⟩, isPruningPoint, balance⟩
    · obtain ⟨left, killed, partly⟩ := (takes rest unfailing).2 all
      rw [Session.run_bind, killed] at isCheckpoint ⊢
      have persisted := persisted_of_hasCheckpoint isCheckpoint (by simp)
      have leftSame := (persistedCheckpoint_congr partly.1).trans ahead.same
      have balance := partly.balanceOf address
      rw [totals] at balance
      exact Or.inl ⟨leftSame.symm.trans persisted, balance⟩

/-- Up to its end an import that does not overflow writes what it pays, and leaves the saved
checkpoint. -/
theorem ImportAhead.exists_imported {emptied : Db} {statements : List ImportStatement}
    {next : DbM Startup} (ahead : ImportAhead cliArgs env input db emptied statements next)
    (serves : Serves utxoSet input.pruningPointHash (usedRounds cliArgs input db))
    (fits : ∀ address, InI64 (utxoBalance cliArgs env (utxoSet input.pruningPointHash) address))
    (noOverflow : importEnd cliArgs env (usedRounds cliArgs input db) ≠ .overflow) :
    ∃ count after, (startProcessing cliArgs env input).Leads db
        (statementsBefore cliArgs input db + 1 + count) next after (fun _ => True) ∧
      after.persistedCheckpoint = db.persistedCheckpoint ∧
      ∀ address,
        after.balanceOf address = importedBalance cliArgs env utxoSet input db address := by
  obtain ⟨count, after, takes, imported⟩ :=
    takes_importFromEmpty statements noOverflow ahead.empty
  refine ⟨count, after, (ahead.leads.mono fun _ _ => trivial).trans
    ((takes.leads fun _ => next).mono fun _ _ => trivial),
    (persistedCheckpoint_congr imported.1).trans ahead.same, fun address => ?_⟩
  rw [imported.balanceOf, entrySum_importedTotals serves fits]

section Truncated

variable (notIgnored : cliArgs.ignoreCheckpoint = none)
  (truncated : truncates cliArgs env input db = true)
  (serves : Serves utxoSet input.pruningPointHash (usedRounds cliArgs input db))
  (fits : ∀ address, InI64 (utxoBalance cliArgs env (utxoSet input.pruningPointHash) address))

include notIgnored truncated serves fits

/-- Cut right after the truncation, and right after the import, a saved block has to be paired
with nothing and with what is imported, and at the end the pruning point of a rebuild too. -/
theorem importsResumed_of_baseline
    (baseline : ∀ script : Script, script.Unfailing →
      Baseline cliArgs env utxoSet input db script) :
    ImportsResumed cliArgs env utxoSet input db := by
  obtain ⟨emptied, statements, next, ahead⟩ := exists_importAhead env notIgnored truncated
  have paired {script : Script} (unfailing : script.Unfailing)
      (executes : script.Executes (statementsBefore cliArgs input db + 1)) {text : String}
      {block : Hash} (persisted : (Session.run (startProcessing cliArgs env input) db
        script).state.persistedCheckpoint = some text) (parsed : Hash.fromStr text = some block) :=
    (baseline script unfailing).paired ⟨truncated, executes⟩ text block (Or.inl persisted) parsed
  constructor
  · intro block saved address
    obtain ⟨text, persisted, parsed⟩ := Option.bind_eq_some_iff.mp saved
    have zero : utxoBalance cliArgs env (utxoSet block) address = 0 := by
      have reached := ahead.leads.state_of_cutAfter
        (((staysDown_attemptEach _).bind fun _ => staysDown_complete _).bind fun _ =>
          ahead.hands.staysDown)
      have balance := paired (Script.unfailing_cutAfter _)
        (Script.executes_cutAfter_iff.mpr (le_refl _))
        (by rw [reached, ahead.same, persisted]) parsed address
      rw [reached, Db.balanceOf, ahead.empty] at balance
      exact balance.symm
    refine ⟨zero, ?_⟩
    by_cases overflow : importEnd cliArgs env (usedRounds cliArgs input db) = .overflow
    · rw [importedBalance, overflow]
    · obtain ⟨count, after, afterLeads, afterSame, balances⟩ :=
        ahead.exists_imported serves fits overflow
      have reached := afterLeads.state_of_cutAfter ahead.hands.staysDown
      have balance := paired (Script.unfailing_cutAfter _)
        (Script.executes_cutAfter_iff.mpr (Nat.le_add_right _ count))
        (by rw [reached, afterSame, persisted]) parsed address
      rw [reached, balances, zero] at balance
      exact balance
  · intro rebuild noOverflow address
    obtain ⟨count, after, afterLeads, afterSame, balances⟩ :=
      ahead.exists_imported serves fits noOverflow
    obtain ⟨script, up⟩ : ∃ script : Script, script.Up := ⟨fun _ => .succeeds, fun _ => rfl⟩
    obtain ⟨rest, restUp, ran⟩ : ∃ rest : Script, rest.Up ∧
        Session.run (startProcessing cliArgs env input) db script = Session.run next after rest :=
      ⟨_, up.after _, (afterLeads script up.unfailing).1 (up.executes _)⟩
    have persisted := ahead.hands.rebuilt rebuild after rest restUp
    rw [← ran] at persisted
    have balance := paired up.unfailing (up.executes _) persisted (Hash.fromStr_encode _) address
    rw [ran, Db.balanceOf, ahead.hands.balances after rest restUp.unfailing afterSame] at balance
    rw [← balances address]
    exact balance

/-- After the truncation a start leaves nothing that is paired with a saved block, and only the
end of a rebuild is paired with the pruning point. -/
theorem baseline_of_importsResumed (resumed : ImportsResumed cliArgs env utxoSet input db)
    {script : Script} (unfailing : script.Unfailing) :
    Baseline cliArgs env utxoSet input db script := by
  obtain ⟨emptied, statements, next, ahead⟩ := exists_importAhead env notIgnored truncated
  refine ⟨?_, fun notTruncated => ?_⟩
  · rintro ⟨_, executes⟩ text block isCheckpoint parsed address
    have later := unfailing.after (statementsBefore cliArgs input db + 1)
    rw [(ahead.leads script unfailing).1 executes] at isCheckpoint ⊢
    rcases ahead.checkpoint_cases serves fits later isCheckpoint address with
      ⟨persisted, balance⟩ | ⟨⟨rebuild, noOverflow⟩, rfl, balance⟩
    · -- The set of a saved block and the import both pay nothing.
      obtain ⟨zero, importedZero⟩ := resumed.saved block
        (Option.bind_eq_some_iff.mpr ⟨text, persisted, parsed⟩) address
      rw [importedZero, or_self] at balance
      rw [balance, zero]
    · cases (Hash.fromStr_encode _).symm.trans parsed
      rw [balance, resumed.rebuilt rebuild noOverflow address]
  · obtain ⟨left, killed, unchanged⟩ := (ahead.leads script unfailing).2 fun executes =>
      notTruncated ⟨truncated, executes⟩
    rw [killed]
    exact unchanged

end Truncated

/-- Wherever a start without errors of the database is cut, it keeps the baseline, exactly if it
truncates nothing, or truncates without a saved block and imports what it resumes from. -/
theorem baseline_iff (notIgnored : cliArgs.ignoreCheckpoint = none)
    (serves : Serves utxoSet input.pruningPointHash (usedRounds cliArgs input db))
    (fits : ∀ address, InI64 (utxoBalance cliArgs env (utxoSet input.pruningPointHash) address)) :
    (∀ script : Script, script.Unfailing → Baseline cliArgs env utxoSet input db script) ↔
      (truncates cliArgs env input db = true → ImportsResumed cliArgs env utxoSet input db) := by
  cases truncated : truncates cliArgs env input db with
  | false =>
      refine iff_of_true (fun script unfailing => ⟨?_, fun _ => ?_⟩) fun absurd => ?_
      · rintro ⟨isTruncated, _⟩
        rw [truncated] at isTruncated
        contradiction
      · exact unchanged_of_not_truncates env notIgnored truncated unfailing
      · contradiction
  | true =>
      simp only [true_implies]
      constructor
      · exact importsResumed_of_baseline notIgnored truncated serves fits
      · intro resumed script unfailing
        exact baseline_of_importsResumed notIgnored truncated serves fits resumed unfailing

end Theorem

/-! ## A first start with one payment -/

/-- Every UTXO set holds 5 for `payee`. -/
def payeeSet (_ : Hash) : List Utxo := [⟨7, 0, 5, ⟨0, []⟩⟩]

def payeeEnv : ImportEnv where
  extractAddress _ := some "payee"
  hostOf _ := none
  defaultP2pPort _ := 0
  hashOrder := .listed

def peerArgs : CliArgs := { CliArgs.standard with p2pUrl := some "peer" }

/-- A start over an empty database, with one attempt to import. -/
def firstStart (events : List P2pEvent) : StartupInput where
  pruningPointHash := 1
  virtualParentHashes := []
  checkpointBlueScore _ := none
  parentBlueScore _ := none
  connected := true
  rebuildRounds := [⟨none, true, events⟩]
  importRounds := []

/-- The shutdown arrives after the only chunk. -/
def cutImport : List P2pEvent :=
  [.message .requestAddresses false, .message (.pruningPointUtxoSetChunk (payeeSet 1)) false]

def wholeImport : List P2pEvent :=
  cutImport ++ [.message .donePruningPointUtxoSetChunks false]

theorem payeeSet_fits (address : String) :
    InI64 (utxoBalance peerArgs payeeEnv (payeeSet 1) address) := by
  by_cases payee : some "payee" = some address <;>
    simp [utxoBalance, payeeSet, Utxo.address, payeeEnv, includeAddress, peerArgs,
      CliArgs.isExcluded, CliArgs.standard, payee, InI64]

/-- Not cut at all, the start makes the pruning point the checkpoint of an empty balance table. -/
theorem cutImport_not_baseline :
    truncates peerArgs payeeEnv (firstStart cutImport) Db.empty = true ∧
      Serves payeeSet 1 (usedRounds peerArgs (firstStart cutImport) Db.empty) ∧
      ¬ Baseline peerArgs payeeEnv payeeSet (firstStart cutImport) Db.empty
        fun _ => .succeeds := by
  refine ⟨by decide, ?_, fun baseline => ?_⟩
  · intro round roundMem pairs received
    have unfinished : ∀ other ∈ usedRounds peerArgs (firstStart cutImport) Db.empty,
        receivedSet 0 other.events = none := by decide
    rw [unfinished round roundMem] at received
    contradiction
  · have truncated : HasTruncated peerArgs payeeEnv (firstStart cutImport) Db.empty
        fun _ => .succeeds := ⟨by decide, fun _ _ => rfl⟩
    have paid := baseline.paired truncated (Hash.encode 1) 1 (Or.inl (by decide +kernel))
      (Hash.fromStr_encode 1) "payee"
    revert paid
    decide +kernel

/-- Cut in the import and not cut at all, the start with the whole set keeps the baseline. -/
theorem wholeImport_baseline :
    (HasTruncated peerArgs payeeEnv (firstStart wholeImport) Db.empty (.cutAfter 4) ∧
      Baseline peerArgs payeeEnv payeeSet (firstStart wholeImport) Db.empty (.cutAfter 4)) ∧
    Baseline peerArgs payeeEnv payeeSet (firstStart wholeImport) Db.empty (fun _ => .succeeds) ∧
    (Session.run (startProcessing peerArgs payeeEnv (firstStart wholeImport)) Db.empty
      fun _ => .succeeds).state.balanceOf "payee" = 5 := by
  have serves : Serves payeeSet 1 (usedRounds peerArgs (firstStart wholeImport) Db.empty) := by
    intro round roundMem pairs received
    have whole : ∀ other ∈ usedRounds peerArgs (firstStart wholeImport) Db.empty,
        receivedSet 0 other.events = some (payeeSet 1) := by decide
    rw [whole round roundMem] at received
    cases received
    exact List.Perm.refl _
  have ended : importEnd peerArgs payeeEnv
      (usedRounds peerArgs (firstStart wholeImport) Db.empty) = .received [("payee", 5)] := by
    decide +kernel
  have resumed : ImportsResumed peerArgs payeeEnv payeeSet (firstStart wholeImport) Db.empty := by
    refine ⟨?_, fun _ _ address => by rw [importedBalance, ended]⟩
    rintro _ ⟨⟩
  have baseline := (baseline_iff rfl serves payeeSet_fits).mpr fun _ => resumed
  refine ⟨⟨⟨by decide, Script.executes_cutAfter_iff.mpr (by decide)⟩, ?_⟩, ?_, ?_⟩
  · exact baseline _ (Script.unfailing_cutAfter 4)
  · exact baseline _ (Script.Up.unfailing fun _ => rfl)
  · decide +kernel

end VecnoIndexer
