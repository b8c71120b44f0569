import VecnoIndexer.Balances.Chunked
import VecnoIndexer.Sql.Cuts
import VecnoIndexer.Sql.Inserts
import VecnoIndexer.UtxoImport.Importer

/-!
# The statements of an import

The importer passes over the error of every statement it issues, and what a peer sends
alone decides which it issues.  So an import is a list of statements, each executed or not
on its own, and either the death of an overflow or the totals of the set received, if one is,
written up to the first chunk that is refused.
-/

namespace VecnoIndexer

open VecnoIndexer.Sql
open VecnoIndexer.Collections

/-! ## The statements of an import -/

/-- The statements issued before the final message. -/
inductive ImportStatement where
  | truncate
  | acceptances (pairs : List Utxo)
  | outputs (pairs : List Utxo)
  deriving DecidableEq, Repr

section Issued

variable (cliArgs : CliArgs) (env : ImportEnv)

/-- The set an attempt receives before its final message, if it gets there. -/
def receivedSet : ℕ → List P2pEvent → Option (List Utxo)
  | _, [] => none
  | _, .closed :: _ => none
  | _, .timedOut :: _ => none
  | chunkCount, .message payload sendFails :: rest =>
      match payload with
      | .version | .other => receivedSet chunkCount rest
      | .requestAddresses | .ping => if sendFails then none else receivedSet chunkCount rest
      | .pruningPointUtxoSetChunk pairs =>
          if (chunkCount + 1) % ibdBatchSize = 0 && sendFails then none
          else (receivedSet (chunkCount + 1) rest).map fun later => pairs ++ later
      | .donePruningPointUtxoSetChunks => some []
      | .unexpectedPruningPoint => none

/-- The set of the first attempt that receives one. -/
def importedSet : List ImportRound → Option (List Utxo)
  | [] => none
  | round :: rest =>
      match resolveP2pAddress cliArgs env round.peer with
      | none => none
      | some _ =>
          if round.connected then
            match receivedSet 0 round.events with
            | some pairs => some pairs
            | none => importedSet rest
          else
            importedSet rest

namespace ImportStatement

def acceptanceRows : ImportStatement → List TransactionAcceptance
  | acceptances pairs => importedAcceptances pairs
  | truncate | outputs _ => []

def outputRows : ImportStatement → List TransactionOutput
  | outputs pairs => pairs.map (Utxo.output cliArgs env)
  | truncate | acceptances _ => []

def effect : ImportStatement → Db → Db
  | truncate, db => { db with balances := .empty }
  | acceptances pairs, db =>
      { db with
        transactionsAcceptances :=
          db.transactionsAcceptances.insertAll (importedAcceptances pairs) }
  | outputs pairs, db =>
      { db with
        transactionsOutputs :=
          db.transactionsOutputs.insertAll (pairs.map (Utxo.output cliArgs env)) }

end ImportStatement

/-- How an attempt ends. -/
inductive AttemptEnd where
  | overflow
  | cutOff
  | received (allBalances : List (String × Int))
  deriving DecidableEq, Repr

/-- The end of an attempt after `chunkCount` chunks with these balances. -/
def attemptEnd : ℕ → List (String × Int) → List P2pEvent → AttemptEnd
  | _, _, [] => .cutOff
  | _, _, .closed :: _ => .cutOff
  | _, _, .timedOut :: _ => .cutOff
  | chunkCount, allBalances, .message payload sendFails :: rest =>
      match payload with
      | .version | .other => attemptEnd chunkCount allBalances rest
      | .requestAddresses | .ping =>
          if sendFails then .cutOff else attemptEnd chunkCount allBalances rest
      | .pruningPointUtxoSetChunk pairs =>
          match addAmounts allBalances (balanceDeltas cliArgs env pairs) with
          | none => .overflow
          | some allBalances =>
              if (chunkCount + 1) % ibdBatchSize = 0 && sendFails then .cutOff
              else attemptEnd (chunkCount + 1) allBalances rest
      | .donePruningPointUtxoSetChunks => .received allBalances
      | .unexpectedPruningPoint => .cutOff

/-- The statements of an attempt after `chunkCount` chunks with these balances. -/
def attemptStatements : ℕ → List (String × Int) → List P2pEvent → List ImportStatement
  | _, _, [] => []
  | _, _, .closed :: _ => []
  | _, _, .timedOut :: _ => []
  | chunkCount, allBalances, .message payload sendFails :: rest =>
      match payload with
      | .version | .other => attemptStatements chunkCount allBalances rest
      | .requestAddresses | .ping =>
          if sendFails then [] else attemptStatements chunkCount allBalances rest
      | .pruningPointUtxoSetChunk pairs =>
          match addAmounts allBalances (balanceDeltas cliArgs env pairs) with
          | none => []
          | some allBalances =>
              [.acceptances pairs, .outputs pairs] ++
                if (chunkCount + 1) % ibdBatchSize = 0 && sendFails then []
                else attemptStatements (chunkCount + 1) allBalances rest
      | .donePruningPointUtxoSetChunks => []
      | .unexpectedPruningPoint => []

/-- The end of the attempts: that of the first one that is not cut off. -/
def importEnd : List ImportRound → AttemptEnd
  | [] => .cutOff
  | round :: rest =>
      match resolveP2pAddress cliArgs env round.peer with
      | none => .cutOff
      | some _ =>
          if round.connected then
            match attemptEnd cliArgs env 0 [] round.events with
            | .cutOff => importEnd rest
            | ended => ended
          else
            importEnd rest

/-- The statements of all attempts up to the one that is not cut off. -/
def importStatements : List ImportRound → List ImportStatement
  | [] => []
  | round :: rest =>
      match resolveP2pAddress cliArgs env round.peer with
      | none => []
      | some _ =>
          (if includeAddress cliArgs then [.truncate] else []) ++
            if round.connected then
              attemptStatements cliArgs env 0 [] round.events ++
                if attemptEnd cliArgs env 0 [] round.events = .cutOff then importStatements rest
                else []
            else
              importStatements rest

/-- The totals of a set, none of whose sums overflows, in the order the map is drained. -/
def drainedTotals (pairs : List Utxo) : List (String × Int) :=
  env.hashOrder.order ((addAmounts [] (balanceDeltas cliArgs env pairs)).getD [])

end Issued

/-! ## The importer issues them -/

section Runs

variable {cliArgs : CliArgs} {env : ImportEnv}

theorem insertUtxos_eq (pairs : List Utxo) :
    insertUtxos cliArgs env pairs =
      attemptEach .unavailable (ImportStatement.effect cliArgs env)
        [.acceptances pairs, .outputs pairs] :=
  rfl

theorem truncateForImport_eq :
    truncateForImport cliArgs =
      attemptEach .unavailable (ImportStatement.effect cliArgs env)
        (if includeAddress cliArgs then [.truncate] else []) := by
  unfold truncateForImport
  cases includeAddress cliArgs <;> rfl

/-- What an attempt does after its statements. -/
def AttemptEnd.finish (cliArgs : CliArgs) (env : ImportEnv) : AttemptEnd → DbM Bool
  | overflow => Session.die
  | cutOff => pure false
  | received allBalances => writeFinalBalances cliArgs env allBalances >>= fun _ => pure true

theorem receiveAndHandle_eq (events : List P2pEvent) (chunkCount : ℕ)
    (allBalances : List (String × Int)) :
    receiveAndHandle cliArgs env chunkCount allBalances events =
      attemptEach .unavailable (ImportStatement.effect cliArgs env)
          (attemptStatements cliArgs env chunkCount allBalances events) >>= fun _ =>
        (attemptEnd cliArgs env chunkCount allBalances events).finish cliArgs env := by
  induction events generalizing chunkCount allBalances with
  | nil => rfl
  | cons event rest ih =>
      cases event with
      | closed => rfl
      | timedOut => rfl
      | message payload sendFails =>
          cases payload with
          | version => exact ih chunkCount allBalances
          | other => exact ih chunkCount allBalances
          | requestAddresses =>
              cases sendFails with
              | true => rfl
              | false => exact ih chunkCount allBalances
          | ping =>
              cases sendFails with
              | true => rfl
              | false => exact ih chunkCount allBalances
          | unexpectedPruningPoint => rfl
          | donePruningPointUtxoSetChunks => rfl
          | pruningPointUtxoSetChunk pairs =>
              rw [receiveAndHandle, attemptStatements, attemptEnd, persistUtxosChunk]
              cases addAmounts allBalances (balanceDeltas cliArgs env pairs) with
              | none => rfl
              | some added =>
                  simp only [Session.orDie, Session.pure_bind, insertUtxos_eq, Session.bind_assoc,
                    attemptEach_append]
                  congr 1
                  funext _
                  split
                  · rfl
                  · exact ih (chunkCount + 1) added

/-- What an import does after its statements. -/
def AttemptEnd.complete (cliArgs : CliArgs) (env : ImportEnv) : AttemptEnd → DbM Unit
  | overflow => Session.die
  | cutOff => pure ()
  | received allBalances => writeFinalBalances cliArgs env allBalances

/-- An import is the statements before the final message, and the death of an overflow or the
totals. -/
theorem importUtxoSet_eq (rounds : List ImportRound) :
    importUtxoSet cliArgs env rounds =
      attemptEach .unavailable (ImportStatement.effect cliArgs env)
          (importStatements cliArgs env rounds) >>= fun _ =>
        (importEnd cliArgs env rounds).complete cliArgs env := by
  induction rounds with
  | nil => rfl
  | cons round rest ih =>
      unfold importUtxoSet importStatements importEnd
      cases resolveP2pAddress cliArgs env round.peer with
      | none => rfl
      | some address =>
          simp only [attemptEach_append, ← truncateForImport_eq, Session.bind_assoc]
          congr 1
          funext _
          cases round.connected with
          | false => exact ih
          | true =>
              simp only [if_true, receiveAndHandle_eq, attemptEach_append, Session.bind_assoc]
              congr 1
              funext _
              cases attemptEnd cliArgs env 0 [] round.events with
              | overflow => rfl
              | cutOff => exact ih
              | received allBalances =>
                  simp only [AttemptEnd.finish, Session.bind_assoc]
                  exact Session.bind_pure _

/-! ## What they receive -/

/-- Cut off, no set is received, and at the end the amounts of the set are added up. -/
def AttemptEnd.Receives (cliArgs : CliArgs) (env : ImportEnv) (before : List (String × Int))
    (set : Option (List Utxo)) : AttemptEnd → Prop
  | overflow => True
  | cutOff => set = none
  | received allBalances => ∃ pairs, set = some pairs ∧
      addAmounts before (balanceDeltas cliArgs env pairs) = some allBalances

theorem receives_attemptEnd (events : List P2pEvent) (chunkCount : ℕ)
    (before : List (String × Int)) :
    (attemptEnd cliArgs env chunkCount before events).Receives cliArgs env before
      (receivedSet chunkCount events) := by
  induction events generalizing chunkCount before with
  | nil => rfl
  | cons event rest ih =>
      cases event with
      | closed => rfl
      | timedOut => rfl
      | message payload sendFails =>
          cases payload with
          | version => exact ih chunkCount before
          | other => exact ih chunkCount before
          | requestAddresses =>
              cases sendFails with
              | true => rfl
              | false => exact ih chunkCount before
          | ping =>
              cases sendFails with
              | true => rfl
              | false => exact ih chunkCount before
          | unexpectedPruningPoint => rfl
          | donePruningPointUtxoSetChunks => exact ⟨[], rfl, rfl⟩
          | pruningPointUtxoSetChunk pairs =>
              rw [attemptEnd, receivedSet]
              cases added : addAmounts before (balanceDeltas cliArgs env pairs) with
              | none => trivial
              | some middle =>
                  dsimp only
                  split_ifs with full
                  · rfl
                  · have later := ih (chunkCount + 1) middle
                    cases ended : attemptEnd cliArgs env (chunkCount + 1) middle rest with
                    | overflow => trivial
                    | cutOff =>
                        rw [ended] at later
                        exact Option.map_eq_none_iff.mpr later
                    | received allBalances =>
                        rw [ended] at later
                        obtain ⟨others, received, addedOthers⟩ := later
                        refine ⟨pairs ++ others,
                          Option.map_eq_some_iff.mpr ⟨others, received, rfl⟩, ?_⟩
                        rw [balanceDeltas, List.filterMap_append, addAmounts_append]
                        exact Option.bind_eq_some_iff.mpr ⟨middle, added, addedOthers⟩

theorem receives_importEnd (rounds : List ImportRound) :
    (importEnd cliArgs env rounds).Receives cliArgs env [] (importedSet cliArgs env rounds) := by
  induction rounds with
  | nil => rfl
  | cons round rest ih =>
      unfold importEnd importedSet
      cases resolveP2pAddress cliArgs env round.peer with
      | none => rfl
      | some address =>
          cases round.connected with
          | false => exact ih
          | true =>
              have receives := @receives_attemptEnd cliArgs env round.events 0 []
              simp only [if_true]
              cases ended : attemptEnd cliArgs env 0 [] round.events with
              | overflow => trivial
              | cutOff =>
                  rw [ended] at receives
                  have nothing : receivedSet 0 round.events = none := receives
                  simp only [nothing]
                  exact ih
              | received allBalances =>
                  rw [ended] at receives
                  obtain ⟨pairs, set, added⟩ := receives
                  simp only [set]
                  exact ⟨pairs, rfl, added⟩

/-- An import of a set that is not cut short by an overflow ends with the totals of the set. -/
theorem importEnd_of_importedSet {rounds : List ImportRound} {pairs : List Utxo}
    (noOverflow : importEnd cliArgs env rounds ≠ .overflow)
    (imported : importedSet cliArgs env rounds = some pairs) :
    ∃ allBalances, importEnd cliArgs env rounds = .received allBalances ∧
      addAmounts [] (balanceDeltas cliArgs env pairs) = some allBalances := by
  have receives := @receives_importEnd cliArgs env rounds
  cases ended : importEnd cliArgs env rounds with
  | overflow => exact absurd ended noOverflow
  | cutOff =>
      rw [ended] at receives
      exact absurd (imported.symm.trans receives) (Option.some_ne_none pairs)
  | received allBalances =>
      rw [ended] at receives
      obtain ⟨others, set, added⟩ := receives
      cases imported.symm.trans set
      exact ⟨allBalances, rfl, added⟩

/-! ## What they leave -/

theorem acceptances_effect (statement : ImportStatement) (db : Db) :
    (statement.effect cliArgs env db).transactionsAcceptances =
      db.transactionsAcceptances.insertAll statement.acceptanceRows := by
  cases statement <;> rfl

theorem outputs_effect (statement : ImportStatement) (db : Db) :
    (statement.effect cliArgs env db).transactionsOutputs =
      db.transactionsOutputs.insertAll (statement.outputRows cliArgs env) := by
  cases statement <;> rfl

/-- The balances are truncated or as they were. -/
theorem balances_effects (statements : List ImportStatement) (db : Db) :
    (statements.foldl (fun db statement => statement.effect cliArgs env db) db).balances =
      if .truncate ∈ statements then .empty else db.balances := by
  induction statements generalizing db with
  | nil => rfl
  | cons statement rest ih =>
      rw [List.foldl_cons, ih]
      cases statement with
      | truncate => simp [ImportStatement.effect]
      | acceptances pairs => simp [ImportStatement.effect]
      | outputs pairs => simp [ImportStatement.effect]

theorem vars_effects (statements : List ImportStatement) (db : Db) :
    (statements.foldl (fun db statement => statement.effect cliArgs env db) db).vars =
      db.vars := by
  induction statements generalizing db with
  | nil => rfl
  | cons statement rest ih =>
      rw [List.foldl_cons, ih]
      cases statement <;> rfl

/-- The rows of a list of totals. -/
def balanceRows (totals : List (String × Int)) : List Balance :=
  totals.map fun entry => ⟨entry.1, entry.2⟩

/-- The state after some totals were written. -/
def withTotals (db : Db) (totals : List (String × Int)) : Db :=
  { db with balances := (balanceRows totals).foldl Table.upsert db.balances }

theorem withTotals_append (db : Db) (first second : List (String × Int)) :
    withTotals db (first ++ second) = withTotals (withTotals db first) second := by
  simp [withTotals, balanceRows]

/-- However it ends, writing chunks leaves those before the first refused one. -/
theorem state_setBalanceChunks (pieces : List (List (String × Int))) (db : Db) (script : Script) :
    (Session.run (setBalanceChunks pieces) db script).state =
      withTotals db (executedFirst pieces script).flatten := by
  induction pieces generalizing db script with
  | nil => rfl
  | cons chunk rest ih =>
      rw [executedFirst]
      by_cases succeeds : script 0 = .succeeds
      · have first : Session.run (statement (setBalances chunk)) db script =
            .done chunk.length (withTotals db chunk) script.tail := by
          apply Session.run_statement_of_succeeds succeeds
          simp [setBalances, withTotals, balanceRows]
        have silent : ∀ total state rest, (Session.run
            (pure (chunk.length + total) : DbM ℕ) state rest).state = state :=
          fun _ _ _ => rfl
        rw [if_pos succeeds, setBalanceChunks, Session.run_bind_of_done first,
          Session.state_bind silent, ih, List.flatten_cons, withTotals_append]
      · rw [if_neg succeeds, setBalanceChunks, Session.run_bind]
        rcases Session.run_statement_of_not_succeeds succeeds with failed | killed
        · unfold statement
          rw [failed]
          rfl
        · unfold statement
          rw [killed]
          rfl

/-- Without addresses there are no amounts. -/
theorem balanceDeltas_of_excluded (excluded : includeAddress cliArgs = false)
    (pairs : List Utxo) : balanceDeltas cliArgs env pairs = [] := by
  apply List.filterMap_eq_nil_iff.mpr
  intro utxo _
  simp [Utxo.address, excluded]

theorem takes_setBalanceChunks {pieces : List (List (String × Int))} {db : Db} {cut : Db → Prop}
    (cuts : ∀ first, first <+: pieces → cut (withTotals db first.flatten)) :
    ∃ count total, (setBalanceChunks pieces).Takes db count total
      (withTotals db pieces.flatten) cut := by
  induction pieces generalizing db with
  | nil => exact ⟨0, 0, Session.takes_pure 0 db cut⟩
  | cons chunk rest ih =>
      have first : (statement (setBalances chunk)).Takes db 1 _ (withTotals db chunk) cut :=
        Session.takes_statement rfl (cuts [] List.nil_prefix)
      obtain ⟨count, total, others⟩ := @ih (withTotals db chunk) fun others isPrefix => by
        rw [← withTotals_append]
        exact cuts (chunk :: others) ((List.prefix_cons_inj chunk).mpr isPrefix)
      rw [List.flatten_cons, withTotals_append]
      exact ⟨_, _, first.bind (others.bind (Session.takes_pure _ _ cut))⟩

theorem staysDown_setBalanceChunks (pieces : List (List (String × Int))) :
    (setBalanceChunks pieces).StaysDown := by
  induction pieces with
  | nil => exact Session.staysDown_pure 0
  | cons chunk rest ih =>
      exact (Session.staysDown_statement _ _).bind fun affected =>
        ih.bind fun total => Session.staysDown_pure _

theorem staysDown_writeFinalBalances (allBalances : List (String × Int)) :
    (writeFinalBalances cliArgs env allBalances).StaysDown := by
  unfold writeFinalBalances
  split
  · exact (staysDown_setBalanceChunks _).attempt.bind fun _ => Session.staysDown_pure ()
  · exact Session.staysDown_pure ()

section Final

variable {pairs : List Utxo} {allBalances : List (String × Int)}
  (added : addAmounts [] (balanceDeltas cliArgs env pairs) = some allBalances)

include added

/-- The final step writes the totals in chunks. -/
theorem writeFinalBalances_eq :
    writeFinalBalances cliArgs env allBalances =
      ((setBalanceChunks (chunks incrementalChunkSize
        (drainedTotals cliArgs env pairs))).attempt >>= fun _ => pure ()) := by
  have drained : drainedTotals cliArgs env pairs = env.hashOrder.order allBalances := by
    rw [drainedTotals, added, Option.getD_some]
  unfold writeFinalBalances
  rw [drained]
  split
  · rfl
  · rename_i skipped
    have noBalances : allBalances = [] := by
      cases included : includeAddress cliArgs with
      | false =>
          rw [balanceDeltas_of_excluded included] at added
          exact (Option.some.inj added).symm
      | true => simpa [included] using skipped
    rw [noBalances, List.perm_nil.mp (env.hashOrder.perm _)]
    rfl

theorem state_writeFinalBalances (db : Db) (script : Script) :
    (Session.run (writeFinalBalances cliArgs env allBalances) db script).state =
      withTotals db (executedFirst (chunks incrementalChunkSize (drainedTotals cliArgs env pairs))
        script).flatten := by
  have silent : ∀ (ignored : Except SqlError ℕ) state rest, (Session.run
      (pure () : DbM Unit) state rest).state = state := fun _ _ _ => rfl
  rw [writeFinalBalances_eq added, Session.state_bind silent, Session.state_attempt]
  exact state_setBalanceChunks _ db script

/-- Cut at a chunk, the final step leaves the first of the totals. -/
theorem takes_writeFinalBalances {db : Db} {cut : Db → Prop}
    (cuts : ∀ first, first <+: drainedTotals cliArgs env pairs → cut (withTotals db first)) :
    ∃ count, (writeFinalBalances cliArgs env allBalances).Takes db count ()
      (withTotals db (drainedTotals cliArgs env pairs)) cut := by
  have flattened := @flatten_chunks _ _ (by decide : 0 < incrementalChunkSize)
    (drainedTotals cliArgs env pairs)
  obtain ⟨count, total, takes⟩ := @takes_setBalanceChunks
    (chunks incrementalChunkSize (drainedTotals cliArgs env pairs)) db cut fun first isPrefix => by
      obtain ⟨others, split⟩ := isPrefix
      refine cuts first.flatten ⟨others.flatten, ?_⟩
      rw [← List.flatten_append, split, flattened]
  rw [flattened] at takes
  rw [writeFinalBalances_eq added]
  exact ⟨_, takes.attempt.bind (Session.takes_pure () _ cut)⟩

end Final

theorem lookup_upsert_balanceRows {totals : List (String × Int)}
    (nodup : (totals.map Prod.fst).Nodup) (balances : Table Balance.primaryKey)
    (address : String) :
    ((balanceRows totals).foldl Table.upsert balances).lookup address =
      if address ∈ totals.map Prod.fst then some ⟨address, entrySum totals address⟩
      else balances.lookup address := by
  have upserted := lookup_foldl_upsert (fun _ => 0) nodup balances address
  simp only [zero_add] at upserted
  exact upserted

end Runs

end VecnoIndexer
