import VecnoIndexer.Balances.Update
import VecnoIndexer.Cli.CliArgs
import VecnoIndexer.Mapping.Rpc

/-!
# The UTXO set importer

`UtxoSetImporter::start`: attempts until one is answered to the end, a shutdown
is signalled, or no peer address is known.  An attempt truncates the balances,
stores the outputs of each chunk and adds up the amounts per address, under overflow
checks; only the final message writes the totals.

What comes from outside is listed: the rounds of the loop before a shutdown, and
in each the events of the connection before a shutdown.  A list that ends is a
shutdown seen at the loop's test.
-/

namespace VecnoIndexer

open VecnoIndexer.Sql
open VecnoIndexer.Collections

/-- One outpoint with its entry, as a chunk carries it. -/
structure Utxo where
  transactionId : Hash
  index : ℕ
  amount : ℕ
  scriptPublicKey : ScriptPublicKey
  deriving DecidableEq, Repr

/-- The payloads of the peer's messages. -/
inductive Payload where
  | version
  | requestAddresses
  | pruningPointUtxoSetChunk (pairs : List Utxo)
  | donePruningPointUtxoSetChunks
  | unexpectedPruningPoint
  | ping
  | other
  deriving DecidableEq, Repr

/-- What `timeout(.., receiver.recv())` yields. An answer to a message may fail to
be sent. -/
inductive P2pEvent where
  | message (payload : Payload) (sendFails : Bool)
  | closed
  | timedOut
  deriving DecidableEq, Repr

/-- One round of the loop. -/
structure ImportRound where
  /-- A peer drawn from the network's list. -/
  peer : Option String
  connected : Bool
  events : List P2pEvent
  deriving DecidableEq, Repr

/-- Code and orders the importer relies on: the address of a script under the
network's prefix, the host of a URL, the network's port, and the order in which
its hash map is drained. -/
structure ImportEnv where
  extractAddress : ScriptPublicKey → Option String
  hostOf : String → Option String
  defaultP2pPort : NetworkType → ℕ
  hashOrder : Reordering (String × Int)

def ibdBatchSize : ℕ := 99

section Importer

variable (cliArgs : CliArgs) (env : ImportEnv)

def includeAddress : Bool :=
  !cliArgs.isExcluded .txOutScriptPublicKeyAddress

/-- `resolve_p2p_address` -/
def resolveP2pAddress (peer : Option String) : Option String :=
  match cliArgs.p2pUrl with
  | some p2pUrl => some p2pUrl
  | none =>
      match cliArgs.network with
      | .mainnet | .testnet =>
          let withPort := fun (host : String) =>
            host ++ ":" ++ toString (env.defaultP2pPort cliArgs.network)
          match cliArgs.rpcUrl with
          | some rpcUrl => (env.hostOf rpcUrl).map withPort
          | none => peer.map withPort
      | .devnet | .simnet => none

/-- The address of an entry, where addresses are not excluded. -/
def Utxo.address (utxo : Utxo) : Option String :=
  if includeAddress cliArgs then env.extractAddress utxo.scriptPublicKey else none

/-- The output row of an entry. -/
def Utxo.output (utxo : Utxo) : TransactionOutput where
  transactionId := utxo.transactionId
  index := wrapI16 utxo.index
  amount := if cliArgs.isExcluded .txOutAmount then none else some (wrapI64 utxo.amount)
  scriptPublicKey :=
    if cliArgs.isExcluded .txOutScriptPublicKey then none else some utxo.scriptPublicKey.script
  scriptPublicKeyAddress := utxo.address cliArgs env
  blockTime := if cliArgs.isExcluded .txOutBlockTime then none else some 0

/-- The acceptance rows of a chunk, one for each transaction, without a block. -/
def importedAcceptances (pairs : List Utxo) : List TransactionAcceptance :=
  (pairs.map Utxo.transactionId).dedup.map fun transactionId => ⟨some transactionId, none⟩

/-- The amounts a chunk adds to the totals. -/
def balanceDeltas (pairs : List Utxo) : List (String × Int) :=
  pairs.filterMap fun utxo =>
    (utxo.address cliArgs env).map fun address => (address, wrapI64 utxo.amount)

/-- The inserts of `persist_utxos_chunk`. An error counts as no row. -/
def insertUtxos (pairs : List Utxo) : DbM Unit := do
  let acceptances := importedAcceptances pairs
  let outputs := pairs.map (Utxo.output cliArgs env)
  let _acceptancesCount ← (statement fun db => .ok ((),
    { db with
      transactionsAcceptances := db.transactionsAcceptances.insertAll acceptances })).attempt
  let _outputsCount ← (statement fun db => .ok ((),
    { db with transactionsOutputs := db.transactionsOutputs.insertAll outputs })).attempt
  pure ()

/-- `persist_utxos_chunk`: the amounts are added to the map of all balances, where an overflow
is a panic, and the rows inserted. -/
def persistUtxosChunk (pairs : List Utxo) (allBalances : List (String × Int)) :
    DbM (List (String × Int)) := do
  let allBalances ← Session.orDie (addAmounts allBalances (balanceDeltas cliArgs env pairs))
  insertUtxos cliArgs env pairs
  pure allBalances

/-- One chunk of `update_balances_absolute`. -/
def setBalances (chunk : List (String × Int)) (db : Db) : Except SqlError (Nat × Db) :=
  let rows : List Balance := chunk.map fun entry => ⟨entry.1, entry.2⟩
  .ok (rows.length, { db with balances := rows.foldl Table.upsert db.balances })

def setBalanceChunks : List (List (String × Int)) → DbM Nat
  | [] => pure 0
  | chunk :: rest => do
      let affected ← statement (setBalances chunk)
      let total ← setBalanceChunks rest
      pure (affected + total)

/-- `update_balances_absolute` -/
def updateBalancesAbsolute (balances : List (String × Int)) : DbM Nat :=
  setBalanceChunks (chunks incrementalChunkSize balances)

/-- The final step: write all totals. -/
def writeFinalBalances (allBalances : List (String × Int)) : DbM Unit :=
  if includeAddress cliArgs && !allBalances.isEmpty then do
    let _ignored ← (updateBalancesAbsolute (env.hashOrder.order allBalances)).attempt
    pure ()
  else
    pure ()

/-- `receive_and_handle` after `chunkCount` chunks with these balances: whether the
set was received to its end. -/
def receiveAndHandle : ℕ → List (String × Int) → List P2pEvent → DbM Bool
  | _, _, [] => pure false
  | _, _, .closed :: _ => pure false
  | _, _, .timedOut :: _ => pure false
  | chunkCount, allBalances, .message payload sendFails :: rest =>
      match payload with
      | .version | .other => receiveAndHandle chunkCount allBalances rest
      | .requestAddresses | .ping =>
          if sendFails then pure false else receiveAndHandle chunkCount allBalances rest
      | .pruningPointUtxoSetChunk pairs => do
          let allBalances ← persistUtxosChunk cliArgs env pairs allBalances
          if (chunkCount + 1) % ibdBatchSize = 0 && sendFails then
            pure false
          else
            receiveAndHandle (chunkCount + 1) allBalances rest
      | .donePruningPointUtxoSetChunks => do
          writeFinalBalances cliArgs env allBalances
          pure true
      | .unexpectedPruningPoint => pure false

/-- `TRUNCATE TABLE balances` -/
def truncateBalances : DbM Unit :=
  statement fun db => .ok ((), { db with balances := .empty })

/-- The truncation of an attempt; an error is logged only. -/
def truncateForImport : DbM Unit :=
  if includeAddress cliArgs then do
    let _logged ← truncateBalances.attempt
    pure ()
  else
    pure ()

/-- `UtxoSetImporter::start` over the rounds before a shutdown. -/
def importUtxoSet : List ImportRound → DbM Unit
  | [] => pure ()
  | round :: rest =>
      match resolveP2pAddress cliArgs env round.peer with
      | none => pure ()
      | some _ => do
          truncateForImport cliArgs
          if round.connected then do
            let completed ← receiveAndHandle cliArgs env 0 [] round.events
            if completed then pure () else importUtxoSet rest
          else
            importUtxoSet rest

end Importer

end VecnoIndexer
