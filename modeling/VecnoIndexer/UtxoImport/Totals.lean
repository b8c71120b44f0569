import VecnoIndexer.Balances.Correctness
import VecnoIndexer.UtxoImport.Statements

/-!
# What an import leaves

An import that truncates leaves the totals of the set it ends with, and nothing if it ends
without one.  Until it is at its end, it leaves the first of these totals, or nothing yet.
Where nothing is truncated the balances stay as they were.
-/

namespace VecnoIndexer

open VecnoIndexer.Sql
open VecnoIndexer.Collections

section Received

variable (cliArgs : CliArgs) (env : ImportEnv)

/-- There is a round before the shutdown, and a peer for it. -/
def attemptsImport : List ImportRound → Bool
  | [] => false
  | round :: _ => (resolveP2pAddress cliArgs env round.peer).isSome

/-- The sum of the amounts a set holds for an address. -/
def utxoBalance (pairs : List Utxo) (address : String) : Int :=
  (pairs.map fun utxo =>
    if utxo.address cliArgs env = some address then (utxo.amount : Int) else 0).sum

end Received

section Totals

variable {cliArgs : CliArgs} {env : ImportEnv}

theorem utxoBalance_perm {first second : List Utxo} (perm : first.Perm second)
    (address : String) :
    utxoBalance cliArgs env first address = utxoBalance cliArgs env second address :=
  (perm.map _).sum_eq

/-- The amount as an `i64`, and where the cast changes it, it makes it less. -/
theorem wrapI64_natCast_le (amount : ℕ) : wrapI64 amount ≤ amount := by
  by_cases fits : InI64 amount
  · exact le_of_eq (wrapI64_of_inI64 fits)
  · have upper := (inI64_wrapI64 amount).2
    have large : ¬ (amount : Int) < 2 ^ 63 := fun below =>
      fits ⟨(by decide : (-2 ^ 63 : Int) ≤ 0).trans (Int.natCast_nonneg amount), below⟩
    omega

theorem wrapI64_natCast_eq_iff (amount : ℕ) : wrapI64 amount = amount ↔ InI64 amount := by
  constructor
  · intro same
    have fits := inI64_wrapI64 amount
    rwa [same] at fits
  · exact wrapI64_of_inI64

theorem entrySum_balanceDeltas_cons (utxo : Utxo) (rest : List Utxo) (address : String) :
    entrySum (balanceDeltas cliArgs env (utxo :: rest)) address =
      (if utxo.address cliArgs env = some address then wrapI64 utxo.amount else 0) +
        entrySum (balanceDeltas cliArgs env rest) address := by
  cases paid : utxo.address cliArgs env with
  | none => simp [balanceDeltas, paid]
  | some other =>
      have deltas : balanceDeltas cliArgs env (utxo :: rest) =
          (other, wrapI64 utxo.amount) :: balanceDeltas cliArgs env rest := by
        simp [balanceDeltas, paid]
      rw [deltas, entrySum_cons]
      simp only [Option.some.injEq]

theorem utxoBalance_cons (utxo : Utxo) (rest : List Utxo) (address : String) :
    utxoBalance cliArgs env (utxo :: rest) address =
      (if utxo.address cliArgs env = some address then (utxo.amount : Int) else 0) +
        utxoBalance cliArgs env rest address := by
  rw [utxoBalance, List.map_cons, List.sum_cons]
  rfl

/-- The amounts as `i64`s sum up to no more than the amounts. -/
theorem entrySum_balanceDeltas_le (pairs : List Utxo) (address : String) :
    entrySum (balanceDeltas cliArgs env pairs) address ≤ utxoBalance cliArgs env pairs address := by
  induction pairs with
  | nil => exact le_refl 0
  | cons utxo rest ih =>
      rw [entrySum_balanceDeltas_cons, utxoBalance_cons]
      have amount := wrapI64_natCast_le utxo.amount
      split_ifs <;> omega

/-- They sum up to the amounts exactly if no amount is changed by the cast. -/
theorem entrySum_balanceDeltas_eq_iff (pairs : List Utxo) (address : String) :
    entrySum (balanceDeltas cliArgs env pairs) address = utxoBalance cliArgs env pairs address ↔
      ∀ utxo ∈ pairs, utxo.address cliArgs env = some address → InI64 utxo.amount := by
  induction pairs with
  | nil => exact iff_of_true rfl fun _ isEntry => absurd isEntry List.not_mem_nil
  | cons utxo rest ih =>
      rw [entrySum_balanceDeltas_cons, utxoBalance_cons, List.forall_mem_cons, ← ih,
        ← wrapI64_natCast_eq_iff]
      have amount := wrapI64_natCast_le utxo.amount
      have others := @entrySum_balanceDeltas_le cliArgs env rest address
      split_ifs with paid <;> simp only [paid, true_implies, false_implies, true_and] <;> omega

/-- An amount is no more than what its address is paid. -/
theorem inI64_amount_of_utxoBalance {pairs : List Utxo} {address : String}
    (fits : InI64 (utxoBalance cliArgs env pairs address)) :
    ∀ utxo ∈ pairs, utxo.address cliArgs env = some address → InI64 utxo.amount := by
  intro utxo isEntry paid
  have within : (utxo.amount : Int) ≤ utxoBalance cliArgs env pairs address := by
    refine List.single_le_sum ?_ _ (List.mem_map.mpr ⟨utxo, isEntry, if_pos paid⟩)
    intro amount isAmount
    obtain ⟨other, _, rfl⟩ := List.mem_map.mp isAmount
    split
    · exact Int.natCast_nonneg other.amount
    · exact le_refl 0
  exact ⟨(by decide : (-2 ^ 63 : Int) ≤ 0).trans (Int.natCast_nonneg _),
    lt_of_le_of_lt within fits.2⟩

/-! ## The totals an import ends with -/

/-- The totals written by an import, in the order of its map: none unless it receives a set. -/
def importedTotals (cliArgs : CliArgs) (env : ImportEnv) (rounds : List ImportRound) :
    List (String × Int) :=
  match importEnd cliArgs env rounds with
  | .received allBalances => env.hashOrder.order allBalances
  | .overflow | .cutOff => []

theorem drainedTotals_eq {pairs : List Utxo} {allBalances : List (String × Int)}
    (added : addAmounts [] (balanceDeltas cliArgs env pairs) = some allBalances) :
    drainedTotals cliArgs env pairs = env.hashOrder.order allBalances := by
  rw [drainedTotals, added, Option.getD_some]

/-- The totals written are the sums of the set. -/
theorem sumsOf_drainedTotals {pairs : List Utxo} {allBalances : List (String × Int)}
    (added : addAmounts [] (balanceDeltas cliArgs env pairs) = some allBalances) :
    SumsOf (balanceDeltas cliArgs env pairs) (drainedTotals cliArgs env pairs) := by
  rw [drainedTotals_eq added]
  exact (sumsOf_of_addAmounts added).of_perm_totals (env.hashOrder.perm allBalances)

theorem nodup_importedTotals (rounds : List ImportRound) :
    ((importedTotals cliArgs env rounds).map Prod.fst).Nodup := by
  have receives := @receives_importEnd cliArgs env rounds
  unfold importedTotals
  cases ended : importEnd cliArgs env rounds with
  | overflow => exact List.nodup_nil
  | cutOff => exact List.nodup_nil
  | received allBalances =>
      rw [ended] at receives
      obtain ⟨pairs, _, added⟩ := receives
      dsimp only
      rw [← drainedTotals_eq added]
      exact (sumsOf_drainedTotals added).nodup

/-- Over an empty table the totals are the balances. -/
theorem balanceIn_upsert_totals {totals : List (String × Int)}
    (nodup : (totals.map Prod.fst).Nodup) (address : String) :
    balanceIn ((balanceRows totals).foldl Table.upsert .empty) address =
      entrySum totals address := by
  rw [balanceIn, lookup_upsert_balanceRows nodup]
  split
  · rfl
  · rename_i absent
    rw [entrySum_eq_zero_of_notMem absent]
    rfl

/-! ## What an import that truncates leaves -/

/-- The balances are the first of the totals an import ends with. -/
def PartlyImported (cliArgs : CliArgs) (env : ImportEnv) (rounds : List ImportRound)
    (before left : Db) : Prop :=
  left.vars = before.vars ∧ ∃ first, first <+: importedTotals cliArgs env rounds ∧
    left.balances = (balanceRows first).foldl Table.upsert .empty

/-- The balances are all totals an import ends with. -/
def Imported (cliArgs : CliArgs) (env : ImportEnv) (rounds : List ImportRound)
    (before left : Db) : Prop :=
  left.vars = before.vars ∧
    left.balances = (balanceRows (importedTotals cliArgs env rounds)).foldl Table.upsert .empty

section Leaves

variable {rounds : List ImportRound} {before left : Db}

theorem PartlyImported.balanceOf (partly : PartlyImported cliArgs env rounds before left)
    (address : String) : left.balanceOf address = 0 ∨
      left.balanceOf address = entrySum (importedTotals cliArgs env rounds) address := by
  obtain ⟨_, first, isPrefix, balances⟩ := partly
  have nodup := @nodup_importedTotals cliArgs env rounds
  rw [Db.balanceOf, balances,
    balanceIn_upsert_totals ((isPrefix.sublist.map Prod.fst).nodup nodup)]
  exact entrySum_prefix nodup isPrefix address

theorem Imported.balanceOf (imported : Imported cliArgs env rounds before left)
    (address : String) :
    left.balanceOf address = entrySum (importedTotals cliArgs env rounds) address := by
  rw [Db.balanceOf, imported.2, balanceIn_upsert_totals (nodup_importedTotals rounds)]

/-- From an empty table on, the statements of an import keep it empty. -/
theorem effects_of_empty (statements : List ImportStatement) (empty : before.balances = .empty) :
    (statements.foldl (fun db statement => statement.effect cliArgs env db) before).vars =
        before.vars ∧
      (statements.foldl (fun db statement => statement.effect cliArgs env db) before).balances =
        .empty := by
  refine ⟨vars_effects statements before, ?_⟩
  rw [balances_effects, empty, ite_self]

/-- From an empty table on, an import that does not overflow leaves its totals. -/
theorem takes_importFromEmpty (statements : List ImportStatement)
    (noOverflow : importEnd cliArgs env rounds ≠ .overflow) (empty : before.balances = .empty) :
    ∃ count after, (attemptEach SqlError.unavailable (ImportStatement.effect cliArgs env)
        statements >>= fun _ => (importEnd cliArgs env rounds).complete cliArgs env).Takes
        before count () after (PartlyImported cliArgs env rounds before) ∧
      Imported cliArgs env rounds before after := by
  obtain ⟨stored, effects, vars, balances⟩ : ∃ stored,
      statements.foldl (fun db statement => statement.effect cliArgs env db) before = stored ∧
        stored.vars = before.vars ∧ stored.balances = .empty :=
    ⟨_, rfl, effects_of_empty statements empty⟩
  have issued : (attemptEach SqlError.unavailable (ImportStatement.effect cliArgs env)
      statements).Takes before statements.length () stored
        (PartlyImported cliArgs env rounds before) := by
    rw [← effects]
    refine takes_attemptEach fun first _ => ?_
    obtain ⟨firstVars, firstBalances⟩ := @effects_of_empty cliArgs env before first empty
    exact ⟨firstVars, [], List.nil_prefix, firstBalances⟩
  have receives := @receives_importEnd cliArgs env rounds
  cases ended : importEnd cliArgs env rounds with
  | overflow => exact absurd ended noOverflow
  | cutOff =>
      have noTotals : importedTotals cliArgs env rounds = [] := by rw [importedTotals, ended]
      refine ⟨_, stored, issued.bind (Session.takes_pure () stored _), vars, ?_⟩
      rw [noTotals, balances]
      rfl
  | received allBalances =>
      rw [ended] at receives
      obtain ⟨pairs, _, added⟩ := receives
      have totals : importedTotals cliArgs env rounds = drainedTotals cliArgs env pairs := by
        rw [importedTotals, ended, drainedTotals_eq added]
      obtain ⟨count, written⟩ := @takes_writeFinalBalances cliArgs env pairs allBalances added
        stored (PartlyImported cliArgs env rounds before) fun first isPrefix => by
          refine ⟨vars, first, totals ▸ isPrefix, ?_⟩
          rw [withTotals, balances]
      refine ⟨_, _, issued.bind written, vars, ?_⟩
      rw [withTotals, balances, totals]

/-- One that overflows leaves it empty. -/
theorem keeps_importFromEmpty {α : Type} (statements : List ImportStatement) :
    (attemptEach SqlError.unavailable (ImportStatement.effect cliArgs env)
      statements >>= fun _ => (Session.die : DbM α)).Keeps
        fun left => left.vars = before.vars ∧ left.balances = .empty := by
  refine Session.Keeps.bind (keeps_attemptEach ?_) fun _ => Session.keeps_die _
  rintro statement - db ⟨vars, empty⟩
  obtain ⟨kept, balances⟩ := @effects_of_empty cliArgs env db [statement] empty
  exact ⟨kept.trans vars, balances⟩

theorem staysDown_complete (ended : AttemptEnd) :
    (ended.complete cliArgs env).StaysDown := by
  cases ended with
  | overflow => exact Session.staysDown_die
  | cutOff => exact Session.staysDown_pure ()
  | received allBalances => exact staysDown_writeFinalBalances allBalances

theorem staysDown_importUtxoSet (rounds : List ImportRound) :
    (importUtxoSet cliArgs env rounds).StaysDown := by
  rw [importUtxoSet_eq]
  exact (staysDown_attemptEach _).bind fun _ => staysDown_complete _

end Leaves

/-! ## Which imports truncate -/

theorem truncate_notMem_attemptStatements (events : List P2pEvent) (chunkCount : ℕ)
    (allBalances : List (String × Int)) :
    .truncate ∉ attemptStatements cliArgs env chunkCount allBalances events := by
  induction events generalizing chunkCount allBalances with
  | nil => exact List.not_mem_nil
  | cons event rest ih =>
      cases event with
      | closed => exact List.not_mem_nil
      | timedOut => exact List.not_mem_nil
      | message payload sendFails =>
          cases payload with
          | version => exact ih chunkCount allBalances
          | other => exact ih chunkCount allBalances
          | requestAddresses =>
              cases sendFails with
              | true => exact List.not_mem_nil
              | false => exact ih chunkCount allBalances
          | ping =>
              cases sendFails with
              | true => exact List.not_mem_nil
              | false => exact ih chunkCount allBalances
          | unexpectedPruningPoint => exact List.not_mem_nil
          | donePruningPointUtxoSetChunks => exact List.not_mem_nil
          | pruningPointUtxoSetChunk pairs =>
              rw [attemptStatements]
              cases addAmounts allBalances (balanceDeltas cliArgs env pairs) with
              | none => exact List.not_mem_nil
              | some added =>
                  have later : .truncate ∉
                      if (chunkCount + 1) % ibdBatchSize = 0 && sendFails then []
                      else attemptStatements cliArgs env (chunkCount + 1) added rest := by
                    split
                    · exact List.not_mem_nil
                    · exact ih (chunkCount + 1) added
                  simp only [List.mem_append, List.mem_cons, List.not_mem_nil, reduceCtorEq,
                    false_or]
                  exact later

theorem truncate_notMem_importStatements (excluded : includeAddress cliArgs = false)
    (rounds : List ImportRound) : .truncate ∉ importStatements cliArgs env rounds := by
  induction rounds with
  | nil => exact List.not_mem_nil
  | cons round rest ih =>
      have attempt := @truncate_notMem_attemptStatements cliArgs env round.events 0 []
      unfold importStatements
      cases resolveP2pAddress cliArgs env round.peer with
      | none => exact List.not_mem_nil
      | some address =>
          rw [excluded]
          cases round.connected with
          | false => exact ih
          | true =>
              simp only [Bool.false_eq_true, if_false, if_true, List.nil_append, List.mem_append,
                attempt, false_or]
              split_ifs
              · exact ih
              · exact List.not_mem_nil

/-- An import that truncates does so with its first statement. -/
theorem exists_importStatements_eq {rounds : List ImportRound}
    (truncates : (includeAddress cliArgs && attemptsImport cliArgs env rounds) = true) :
    ∃ later, importStatements cliArgs env rounds = .truncate :: later := by
  obtain ⟨included, attempts⟩ := Bool.and_eq_true_iff.mp truncates
  cases rounds with
  | nil => contradiction
  | cons round rest =>
      obtain ⟨address, peer⟩ := Option.isSome_iff_exists.mp attempts
      rw [importStatements, peer, included]
      exact ⟨_, rfl⟩

/-- One that does not keeps the balances. -/
theorem keeps_importUtxoSet {rounds : List ImportRound} {before : Db}
    (notTruncated : (includeAddress cliArgs && attemptsImport cliArgs env rounds) = false) :
    (importUtxoSet cliArgs env rounds).Keeps
      fun left => left.vars = before.vars ∧ left.balances = before.balances := by
  have noTruncation : .truncate ∉ importStatements cliArgs env rounds := by
    cases included : includeAddress cliArgs with
    | false => exact truncate_notMem_importStatements included rounds
    | true =>
        rw [included, Bool.true_and] at notTruncated
        cases rounds with
        | nil => exact List.not_mem_nil
        | cons round rest =>
            have noPeer : resolveP2pAddress cliArgs env round.peer = none := by
              simpa [attemptsImport] using notTruncated
            simp [importStatements, noPeer]
  have receives := @receives_importEnd cliArgs env rounds
  rw [importUtxoSet_eq]
  refine Session.Keeps.bind (keeps_attemptEach ?_) fun _ => ?_
  · rintro statement isIssued db ⟨vars, balances⟩
    cases statement with
    | truncate => exact absurd isIssued noTruncation
    | acceptances pairs => exact ⟨vars, balances⟩
    | outputs pairs => exact ⟨vars, balances⟩
  · cases ended : importEnd cliArgs env rounds with
    | overflow => exact Session.keeps_die _
    | cutOff => exact Session.keeps_pure _ _
    | received allBalances =>
        -- A set is received by an attempt, so it is the addresses that are excluded.
        rw [ended] at receives
        obtain ⟨pairs, imported, added⟩ := receives
        have excluded : includeAddress cliArgs = false := by
          cases attempts : attemptsImport cliArgs env rounds with
          | true => simpa [attempts] using notTruncated
          | false =>
              cases rounds with
              | nil => contradiction
              | cons round rest =>
                  have noPeer : resolveP2pAddress cliArgs env round.peer = none := by
                    simpa [attemptsImport] using attempts
                  simp [importedSet, noPeer] at imported
        rw [AttemptEnd.complete, writeFinalBalances, excluded]
        exact Session.keeps_pure _ _

end Totals

end VecnoIndexer
