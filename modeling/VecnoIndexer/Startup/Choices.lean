import VecnoIndexer.Sql.Cuts
import VecnoIndexer.Startup.StartProcessing
import VecnoIndexer.UtxoImport.Totals

/-!
# What a start chooses

A start reads the saved checkpoint to decide on a rebuild, reads it again to choose where to
resume, and saves what it has chosen.  Neither reading changes anything, and from the choice on
the checkpoint stays, and without an import that truncates the balances do too.
-/

namespace VecnoIndexer

open VecnoIndexer.Sql

/-- The balances are rebuilt: by option, without a saved checkpoint, or with one
that is too old. -/
def rebuilds (cliArgs : CliArgs) (input : StartupInput) (db : Db) : Bool :=
  cliArgs.forceBalanceRebuild ||
    match db.persistedCheckpoint with
    | some saved =>
        match Hash.fromStr saved with
        | some hash => input.tooOld hash
        | none => false
    | none => true

/-- The statements that load the checkpoint: without a row under the newer key, two. -/
def loadStatements (db : Db) : ℕ :=
  if (db.vars.lookup varKeyBlockCheckpoint).isSome then 1 else 2

section Statements

variable {cliArgs : CliArgs} {env : ImportEnv} {input : StartupInput} {db : Db}

theorem takes_selectVar (key : String) (db : Db) :
    (selectVar key).attempt.Takes db 1
      ((db.vars.lookup key).elim (.error .rowNotFound) fun row => .ok row.value) db (· = db) := by
  cases found : db.vars.lookup key with
  | some row =>
      have executed : (selectVar key).Takes db 1 row.value db (· = db) :=
        Session.takes_statement (by rw [found]) rfl
      exact executed.attempt
  | none => exact Session.takes_attempt_of_error (by rw [found]) rfl

theorem takes_loadBlockCheckpoint (db : Db) :
    loadBlockCheckpoint.Takes db (loadStatements db) db.persistedCheckpoint db (· = db) := by
  have newer := takes_selectVar varKeyBlockCheckpoint db
  have legacy := takes_selectVar varKeyLegacyCheckpoint db
  unfold loadStatements Db.persistedCheckpoint
  cases newerRow : db.vars.lookup varKeyBlockCheckpoint with
  | some row =>
      rw [newerRow] at newer
      refine newer.bind (n := 0) ?_
      exact Session.takes_pure _ db _
  | none =>
      rw [newerRow] at newer
      refine newer.bind (n := 1) ?_
      cases legacyRow : db.vars.lookup varKeyLegacyCheckpoint with
      | some row =>
          rw [legacyRow] at legacy
          refine legacy.bind (n := 0) ?_
          exact Session.takes_pure _ db _
      | none =>
          rw [legacyRow] at legacy
          refine legacy.bind (n := 0) ?_
          exact Session.takes_pure _ db _

theorem takes_decideRebuild (cliArgs : CliArgs) (input : StartupInput) (db : Db) :
    (decideRebuild cliArgs input).Takes db
      (if cliArgs.forceBalanceRebuild then 0 else loadStatements db) (rebuilds cliArgs input db) db
      (· = db) := by
  unfold decideRebuild rebuilds
  cases cliArgs.forceBalanceRebuild with
  | true => exact Session.takes_pure true db _
  | false =>
      refine (takes_loadBlockCheckpoint db).bind (n := 0) ?_
      cases db.persistedCheckpoint with
      | none => exact Session.takes_pure true db _
      | some saved =>
          cases parsed : Hash.fromStr saved with
          | none =>
              simp only [parsed, Bool.false_or]
              exact Session.takes_pure false db _
          | some hash =>
              simp only [parsed, Bool.false_or]
              exact Session.takes_pure _ db _

theorem takes_chooseCheckpoint (notIgnored : cliArgs.ignoreCheckpoint = none)
    {saved : String} {hash : Hash} (persisted : db.persistedCheckpoint = some saved)
    (parsed : Hash.fromStr saved = some hash) (utxoSetImport : Bool) :
    (chooseCheckpoint cliArgs input utxoSetImport).Takes db (loadStatements db)
      (saved, hash, utxoSetImport) db (· = db) := by
  unfold chooseCheckpoint
  rw [notIgnored]
  refine (takes_loadBlockCheckpoint db).bind (n := 0) ?_
  simp only [persisted, parsed]
  exact Session.takes_pure _ db _

theorem takes_saveCheckpoint (blockHash : String) (db : Db) :
    (saveCheckpoint blockHash).Takes db 1 1 (db.withCheckpoint blockHash) (· = db) := by
  unfold saveCheckpoint upsertVar
  exact Session.takes_statement rfl rfl

theorem staysDown_saveCheckpoint (blockHash : String) : (saveCheckpoint blockHash).StaysDown := by
  unfold saveCheckpoint upsertVar
  exact Session.staysDown_statement _ _

theorem staysDown_loadBlockCheckpoint : loadBlockCheckpoint.StaysDown := by
  refine (Session.staysDown_statement _ _).attempt.bind fun newer => ?_
  split
  · exact Session.staysDown_pure _
  · refine (Session.staysDown_statement _ _).attempt.bind fun legacy => ?_
    split <;> exact Session.staysDown_pure _

theorem staysDown_chooseCheckpoint (notIgnored : cliArgs.ignoreCheckpoint = none)
    (utxoSetImport : Bool) : (chooseCheckpoint cliArgs input utxoSetImport).StaysDown := by
  unfold chooseCheckpoint
  rw [notIgnored]
  refine staysDown_loadBlockCheckpoint.bind fun loaded => ?_
  split
  · split
    · exact Session.staysDown_pure _
    · exact Session.staysDown_die
  · exact Session.staysDown_pure _

theorem staysDown_startFrom (previous : String) (block : Hash) (utxoSetImport : Bool) :
    (startFrom cliArgs env input previous block utxoSetImport).StaysDown := by
  refine (staysDown_saveCheckpoint previous).attempt.bind fun _ => ?_
  split
  · refine Session.StaysDown.bind ?_ fun _ => Session.staysDown_pure _
    unfold importIf
    split
    · exact staysDown_importUtxoSet _
    · exact Session.staysDown_pure ()
  · exact Session.staysDown_die

end Statements

/-! ## Starts without a rebuild -/

section Resumes

variable {cliArgs : CliArgs} {input : StartupInput} {db : Db} {saved : String} {hash : Hash}
  {script : Script}

/-- Without a rebuild a start dies before it changes anything or goes on to choose. -/
theorem run_startProcessing_of_not_rebuilds (env : ImportEnv)
    (noRebuild : rebuilds cliArgs input db = false) (unfailing : script.Unfailing) :
    Session.run (startProcessing cliArgs env input) db script = .killed db ∨
      ∃ rest : Script, rest.Unfailing ∧
        Session.run (startProcessing cliArgs env input) db script =
          Session.run (chooseCheckpoint cliArgs input (cliArgs.isEnabled .forceUtxoImport) >>=
            fun chosen => startFrom cliArgs env input chosen.1 chosen.2.1 chosen.2.2) db rest := by
  have decided := (noRebuild ▸ takes_decideRebuild cliArgs input db).reads
  unfold startProcessing
  rcases decided script unfailing with killed | ⟨rest, restUnfailing, returned⟩
  · left
    rw [Session.run_bind, killed]
  · right
    refine ⟨rest, restUnfailing, ?_⟩
    rw [Session.run_bind_of_done returned, rebuildIf, if_neg Bool.false_ne_true,
      Session.run_bind_of_done (Session.run_pure _ db rest)]

/-- From a saved block it dies before it changes anything or goes on from there. -/
theorem startProcessing_resumes (env : ImportEnv) (notIgnored : cliArgs.ignoreCheckpoint = none)
    (noRebuild : rebuilds cliArgs input db = false)
    (persisted : db.persistedCheckpoint = some saved) (parsed : Hash.fromStr saved = some hash)
    (unfailing : script.Unfailing) :
    Session.run (startProcessing cliArgs env input) db script = .killed db ∨
      ∃ rest, Session.run (startProcessing cliArgs env input) db script =
        Session.run (startFrom cliArgs env input saved hash (cliArgs.isEnabled .forceUtxoImport))
          db rest := by
  rcases run_startProcessing_of_not_rebuilds env noRebuild unfailing with
    killed | ⟨first, firstUnfailing, started⟩
  · exact Or.inl killed
  · have chooses : (chooseCheckpoint cliArgs input (cliArgs.isEnabled .forceUtxoImport)).Takes
        db _ _ _ _ := takes_chooseCheckpoint notIgnored persisted parsed _
    rw [started]
    rcases chooses.reads first firstUnfailing with killed | ⟨rest, _, returned⟩
    · left
      rw [Session.run_bind, killed]
    · right
      exact ⟨rest, Session.run_bind_of_done returned⟩

/-- From a saved text that is no block it dies before it changes anything. -/
theorem startProcessing_of_invalid (env : ImportEnv)
    (notIgnored : cliArgs.ignoreCheckpoint = none)
    (noRebuild : rebuilds cliArgs input db = false)
    (persisted : db.persistedCheckpoint = some saved) (invalid : Hash.fromStr saved = none)
    (unfailing : script.Unfailing) :
    Session.run (startProcessing cliArgs env input) db script = .killed db := by
  rcases run_startProcessing_of_not_rebuilds env noRebuild unfailing with
    killed | ⟨first, firstUnfailing, started⟩
  · exact killed
  · rw [started, chooseCheckpoint, notIgnored]
    rcases (takes_loadBlockCheckpoint db).reads first firstUnfailing with
      killed | ⟨rest, _, loaded⟩
    · simp only [Session.run_bind, killed]
    · dsimp only
      rw [Session.bind_assoc, Session.run_bind_of_done loaded]
      simp only [persisted, invalid]
      rfl

end Resumes

/-! ## From the choice on -/

section Chosen

variable {cliArgs : CliArgs} {env : ImportEnv} {input : StartupInput} {previous : String}
  {block : Hash} {utxoSetImport : Bool}

/-- The import before the processors start truncates the balances. -/
def truncatesBefore (cliArgs : CliArgs) (env : ImportEnv) (input : StartupInput)
    (utxoSetImport : Bool) : Bool :=
  input.connected && utxoSetImport &&
    (includeAddress cliArgs && attemptsImport cliArgs env input.importRounds)

/-- Without a truncation the balances are kept, and what is chosen is the checkpoint. -/
theorem keeps_startFrom
    (notTruncated : truncatesBefore cliArgs env input utxoSetImport = false)
    (balances : Table Balance.primaryKey) :
    (startFrom cliArgs env input previous block utxoSetImport).Keeps
      fun db => db.persistedCheckpoint = some previous ∧ db.balances = balances := by
  have saves : (saveCheckpoint previous).Keeps
      fun db => db.persistedCheckpoint = some previous ∧ db.balances = balances :=
    keeps_saveCheckpoint fun db holds => ⟨persistedCheckpoint_withCheckpoint db previous, holds.2⟩
  refine saves.attempt.bind fun _ => ?_
  cases connected : input.connected with
  | false => exact Session.keeps_die _
  | true =>
      simp only [if_true]
      refine Session.Keeps.bind ?_ fun _ => Session.keeps_pure _ _
      cases imports : utxoSetImport with
      | false => exact Session.keeps_pure () _
      | true =>
          rw [truncatesBefore, connected, imports, Bool.true_and, Bool.true_and] at notTruncated
          rintro db script ⟨persisted, kept⟩
          obtain ⟨vars, same⟩ := @keeps_importUtxoSet cliArgs env _ db notTruncated db script
            ⟨rfl, rfl⟩
          exact ⟨(persistedCheckpoint_congr vars).trans persisted, same.trans kept⟩

/-- What is chosen is handed over. -/
theorem previousCheckpoint_of_startFrom {db final : Db} {script rest : Script} {startup : Startup}
    (ran : Session.run (startFrom cliArgs env input previous block utxoSetImport) db script =
      .done startup final rest) : startup.previousCheckpoint = previous := by
  obtain ⟨_, _, _, _, ran⟩ := Session.done_of_run_bind ran
  split at ran
  · obtain ⟨_, _, _, _, ran⟩ := Session.done_of_run_bind ran
    cases ran
    rfl
  · contradiction

end Chosen

end VecnoIndexer
