import VecnoIndexer.Checkpoint.Vars
import VecnoIndexer.UtxoImport.Importer

/-!
# Starting the processors

`start_processing` from the answer to `get_block_dag_info` to the spawning of the
processors: whether the balances are rebuilt, which checkpoint the run resumes
from, and whether a UTXO set is imported before it begins.
-/

namespace VecnoIndexer

open VecnoIndexer.Sql
open VecnoIndexer.Collections

/-- What a start meets outside the database. A blue score is absent when no
connection is available or `get_block` fails. -/
structure StartupInput where
  pruningPointHash : Hash
  virtualParentHashes : List Hash
  checkpointBlueScore : Hash → Option ℕ
  parentBlueScore : Hash → Option ℕ
  /-- A connection is available when the checkpoint block is fetched. -/
  connected : Bool
  /-- The rounds of the import of a rebuild, before a shutdown. -/
  rebuildRounds : List ImportRound
  /-- The rounds of the import before the processors start. -/
  importRounds : List ImportRound

/-- What the processors are started with. -/
structure Startup where
  previousCheckpoint : String
  checkpoint : Hash
  disableVcpWaitForSync : Bool
  deriving DecidableEq, Repr

def rebuildThresholdBlue : ℕ := 200000

/-- The checkpoint is too far behind the virtual parent. A score that cannot be
fetched counts as zero. -/
def StartupInput.tooOld (input : StartupInput) (lastCpHash : Hash) : Bool :=
  let lastBlue := (input.checkpointBlueScore lastCpHash).getD 0
  let currentBlue := (input.virtualParentHashes.head?.bind input.parentBlueScore).getD 0
  decide (rebuildThresholdBlue < currentBlue - lastBlue)

section Start

variable (cliArgs : CliArgs) (env : ImportEnv) (input : StartupInput)

/-- Whether the balances are rebuilt. -/
def decideRebuild : DbM Bool :=
  if cliArgs.forceBalanceRebuild then
    pure true
  else do
    match ← loadBlockCheckpoint with
    | some lastCpStr =>
        match Hash.fromStr lastCpStr with
        | some lastCpHash => pure (input.tooOld lastCpHash)
        | none => pure false
    | none => pure true

/-- The rebuild from the current pruning point. A failed truncation panics; the
checkpoint is saved however the import ended. -/
def rebuildBalances : DbM Unit := do
  truncateBalances.unwrap
  importUtxoSet cliArgs env input.rebuildRounds
  let _logged ← (saveCheckpoint input.pruningPointHash.encode).attempt
  pure ()

/-- The rebuild, if any; whether a set is still to be imported. -/
def rebuildIf (forceBalanceRebuild : Bool) : DbM Bool :=
  if forceBalanceRebuild then do
    rebuildBalances cliArgs env input
    pure false
  else
    pure (cliArgs.isEnabled .forceUtxoImport)

/-- The block `--ignore-checkpoint` names. -/
def ignoredCheckpoint (ignoreCheckpoint : String) : Option Hash :=
  if ignoreCheckpoint = "p" then some input.pruningPointHash
  else if ignoreCheckpoint = "v" then input.virtualParentHashes.head?
  else Hash.fromStr ignoreCheckpoint

/-- The previous checkpoint, its block, and whether a set is imported. -/
def chooseCheckpoint (utxoSetImport : Bool) : DbM (String × Hash × Bool) :=
  match cliArgs.ignoreCheckpoint with
  | some ignoreCheckpoint =>
      match ignoredCheckpoint input ignoreCheckpoint with
      | some hash => pure (hash.encode, hash, utxoSetImport)
      | none => Session.die
  | none => do
      match ← loadBlockCheckpoint with
      | some saved =>
          match Hash.fromStr saved with
          | some hash => pure (saved, hash, utxoSetImport)
          | none => Session.die
      | none =>
          pure (input.pruningPointHash.encode, input.pruningPointHash,
            !cliArgs.isDisabled .initialUtxoImport)

/-- The import before the processors start. -/
def importIf (utxoSetImport : Bool) : DbM Unit :=
  if utxoSetImport then importUtxoSet cliArgs env input.importRounds else pure ()

/-- From a chosen checkpoint on: it is saved, its block is fetched over a
connection the code unwraps, and the set is imported. -/
def startFrom (previousCheckpoint : String) (checkpoint : Hash) (utxoSetImport : Bool) :
    DbM Startup := do
  let _logged ← (saveCheckpoint previousCheckpoint).attempt
  if input.connected then do
    importIf cliArgs env input utxoSetImport
    pure {
      previousCheckpoint
      checkpoint
      disableVcpWaitForSync := cliArgs.isDisabled .vcpWaitForSync || utxoSetImport }
  else
    Session.die

def startProcessing : DbM Startup := do
  let forceBalanceRebuild ← decideRebuild cliArgs input
  let utxoSetImport ← rebuildIf cliArgs env input forceBalanceRebuild
  let (previousCheckpoint, checkpoint, utxoSetImport) ←
    chooseCheckpoint cliArgs input utxoSetImport
  startFrom cliArgs env input previousCheckpoint checkpoint utxoSetImport

end Start

end VecnoIndexer
