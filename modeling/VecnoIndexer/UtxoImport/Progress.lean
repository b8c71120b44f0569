import Mathlib.Data.Finset.Card
import Mathlib.Data.List.Flatten
import VecnoIndexer.UtxoImport.Statements
import VecnoIndexer.UtxoImport.Writers

/-!
# The progress of an import

The importer reports as the number of UTXOs the sum, over the chunks, of the size of the map
of all addresses so far.  An address is counted once more with every chunk after the first
that pays it, and an entry that brings no new address is not counted.  The number is right
where neither happens, and where only one of them does it is not.
-/

namespace VecnoIndexer

open VecnoIndexer.Sql
open VecnoIndexer.Collections

/-! ## Keys counted after every chunk -/

section Keys

variable {κ : Type} [DecidableEq κ]

/-- The keys that occur in some chunks. -/
def keysOf (chunks : List (List κ)) : Finset κ :=
  chunks.flatten.toFinset

/-- The sum, over the chunks, of the number of keys up to there. -/
def sumOfKeys (chunks : List (List κ)) : ℕ :=
  ((List.range chunks.length).map fun index => (keysOf (chunks.take (index + 1))).card).sum

theorem sumOfKeys_concat (chunks : List (List κ)) (last : List κ) :
    sumOfKeys (chunks ++ [last]) = sumOfKeys chunks + (keysOf (chunks ++ [last])).card := by
  rw [sumOfKeys, List.length_append, List.length_singleton, List.range_succ, List.map_append,
    List.sum_append, List.map_singleton, List.sum_singleton]
  congr 1
  · rw [sumOfKeys]
    congr 1
    apply List.map_congr_left
    intro index inRange
    rw [List.take_append_of_le_length (List.mem_range.mp inRange)]
  · rw [List.take_of_length_le (by simp)]

/-- Without keys nothing is counted. -/
theorem sumOfKeys_eq_zero_iff (chunks : List (List κ)) :
    sumOfKeys chunks = 0 ↔ keysOf chunks = ∅ := by
  induction chunks using List.reverseRecOn with
  | nil => exact iff_of_true rfl rfl
  | append_singleton chunks last ih =>
      rw [sumOfKeys_concat, Nat.add_eq_zero_iff, ih, Finset.card_eq_zero]
      refine and_iff_right_of_imp fun nothing => Finset.subset_empty.mp ?_
      rw [← nothing]
      intro key occurs
      rw [keysOf, List.flatten_append, List.toFinset_append]
      exact Finset.mem_union_left _ occurs

end Keys

/-! ## The reports -/

section Reports

variable (cliArgs : CliArgs) (env : ImportEnv)

/-- What the importer has written to `utxos_imported`, with the chunks received. -/
structure ProgressReport where
  chunkCount : ℕ
  totalUtxos : ℕ
  deriving DecidableEq, Repr

/-- `receive_and_handle` with its reports. -/
def receiveAndReport : ℕ → ℕ → List (String × Int) → List P2pEvent →
    DbM (Bool × List ProgressReport)
  | _, _, _, [] => pure (false, [])
  | _, _, _, .closed :: _ => pure (false, [])
  | _, _, _, .timedOut :: _ => pure (false, [])
  | chunkCount, totalUtxos, allBalances, .message payload sendFails :: rest =>
      match payload with
      | .version | .other => receiveAndReport chunkCount totalUtxos allBalances rest
      | .requestAddresses | .ping =>
          if sendFails then pure (false, [])
          else receiveAndReport chunkCount totalUtxos allBalances rest
      | .pruningPointUtxoSetChunk pairs => do
          let allBalances ← persistUtxosChunk cliArgs env pairs allBalances
          let totalUtxos := totalUtxos + allBalances.length
          if (chunkCount + 1) % ibdBatchSize = 0 then
            if sendFails then
              pure (false, [])
            else do
              let (completed, reports) ←
                receiveAndReport (chunkCount + 1) totalUtxos allBalances rest
              pure (completed, ⟨chunkCount + 1, totalUtxos⟩ :: reports)
          else
            receiveAndReport (chunkCount + 1) totalUtxos allBalances rest
      | .donePruningPointUtxoSetChunks => do
          writeFinalBalances cliArgs env allBalances
          pure (true, [⟨chunkCount, totalUtxos⟩])
      | .unexpectedPruningPoint => pure (false, [])

/-- The reports of an attempt that is neither cut off nor ended by an overflow. -/
def progressReports : ℕ → ℕ → List (String × Int) → List P2pEvent → List ProgressReport
  | _, _, _, [] => []
  | _, _, _, .closed :: _ => []
  | _, _, _, .timedOut :: _ => []
  | chunkCount, totalUtxos, allBalances, .message payload sendFails :: rest =>
      match payload with
      | .version | .other => progressReports chunkCount totalUtxos allBalances rest
      | .requestAddresses | .ping =>
          if sendFails then [] else progressReports chunkCount totalUtxos allBalances rest
      | .pruningPointUtxoSetChunk pairs =>
          match addAmounts allBalances (balanceDeltas cliArgs env pairs) with
          | none => []
          | some allBalances =>
              let totalUtxos := totalUtxos + allBalances.length
              if (chunkCount + 1) % ibdBatchSize = 0 then
                if sendFails then []
                else ⟨chunkCount + 1, totalUtxos⟩ ::
                  progressReports (chunkCount + 1) totalUtxos allBalances rest
              else
                progressReports (chunkCount + 1) totalUtxos allBalances rest
      | .donePruningPointUtxoSetChunks => [⟨chunkCount, totalUtxos⟩]
      | .unexpectedPruningPoint => []

variable {cliArgs env}

/-- The reports depend on what the peer sends alone, and leave the import as it is. -/
theorem receiveAndReport_eq (events : List P2pEvent) (chunkCount totalUtxos : ℕ)
    (before : List (String × Int)) :
    receiveAndReport cliArgs env chunkCount totalUtxos before events =
      receiveAndHandle cliArgs env chunkCount before events >>= fun completed =>
        pure (completed, progressReports cliArgs env chunkCount totalUtxos before events) := by
  induction events generalizing chunkCount totalUtxos before with
  | nil => rfl
  | cons event rest ih =>
      cases event with
      | closed => rfl
      | timedOut => rfl
      | message payload sendFails =>
          cases payload with
          | version => exact ih chunkCount totalUtxos before
          | other => exact ih chunkCount totalUtxos before
          | requestAddresses =>
              cases sendFails with
              | true => rfl
              | false => exact ih chunkCount totalUtxos before
          | ping =>
              cases sendFails with
              | true => rfl
              | false => exact ih chunkCount totalUtxos before
          | pruningPointUtxoSetChunk pairs =>
              rw [receiveAndReport, receiveAndHandle, progressReports, persistUtxosChunk]
              cases addAmounts before (balanceDeltas cliArgs env pairs) with
              | none => rfl
              | some added =>
                  simp only [Session.orDie, Session.pure_bind, Session.bind_assoc]
                  apply congrArg (insertUtxos cliArgs env pairs >>= ·)
                  funext _
                  by_cases full : (chunkCount + 1) % ibdBatchSize = 0
                  · cases sendFails with
                    | true =>
                        simp only [full, decide_true, Bool.and_self, if_true]
                        rfl
                    | false =>
                        simp only [full, ih, Session.bind_assoc, Bool.and_false]
                        rfl
                  · simp only [full, ih, decide_false, Bool.false_and]
                    rfl
          | donePruningPointUtxoSetChunks =>
              rw [receiveAndReport, receiveAndHandle, progressReports, Session.bind_assoc]
              rfl
          | unexpectedPruningPoint => rfl

/-! ## What is reported of a whole set -/

/-- The chunks of a set, and the message after the last. -/
def sendChunks (chunks : List (List Utxo)) : List P2pEvent :=
  chunks.map (fun pairs => .message (.pruningPointUtxoSetChunk pairs) false) ++
    [.message .donePruningPointUtxoSetChunks false]

/-- The numbers of chunks after which there is a report. -/
def reportedCounts (chunkCount : ℕ) : List ℕ :=
  (List.range' 1 chunkCount).filter (fun count => count % ibdBatchSize = 0) ++ [chunkCount]

variable (cliArgs env)

/-- The addresses that some chunks pay. -/
def paidChunks (chunks : List (List Utxo)) : List (List String) :=
  chunks.map fun pairs => pairs.filterMap (Utxo.address cliArgs env)

/-- All chunks but the last are empty. -/
def LastOnly (chunks : List (List Utxo)) : Prop :=
  ∀ pairs ∈ chunks.dropLast, pairs = []

/-- Every entry received brings a new address. -/
structure AllNew (chunks : List (List Utxo)) : Prop where
  standard : ∀ utxo ∈ chunks.flatten, (utxo.address cliArgs env).isSome = true
  distinct : (chunks.flatten.filterMap (Utxo.address cliArgs env)).Nodup

variable {cliArgs env}

theorem map_fst_balanceDeltas (pairs : List Utxo) :
    (balanceDeltas cliArgs env pairs).map Prod.fst =
      pairs.filterMap (Utxo.address cliArgs env) := by
  rw [balanceDeltas, List.map_filterMap]
  apply List.filterMap_congr
  intro utxo _
  cases utxo.address cliArgs env <;> rfl

theorem flatten_paidChunks (chunks : List (List Utxo)) :
    (paidChunks cliArgs env chunks).flatten =
      chunks.flatten.filterMap (Utxo.address cliArgs env) := by
  rw [paidChunks, List.filterMap_flatten]

theorem keysOf_paidChunks (chunks : List (List Utxo)) :
    keysOf (paidChunks cliArgs env chunks) =
      (chunks.flatten.filterMap (Utxo.address cliArgs env)).toFinset := by
  rw [keysOf, flatten_paidChunks]

/-- The size of the map is the number of addresses. -/
theorem length_allBalances {chunks : List (List Utxo)} {allBalances : List (String × Int)}
    (added : addAmounts [] (balanceDeltas cliArgs env chunks.flatten) = some allBalances) :
    allBalances.length = (keysOf (paidChunks cliArgs env chunks)).card := by
  have sums := sumsOf_of_addAmounts added
  have sameKeys : (allBalances.map Prod.fst).toFinset = keysOf (paidChunks cliArgs env chunks) := by
    ext address
    rw [List.mem_toFinset, sums.keys, map_fst_balanceDeltas, keysOf_paidChunks, List.mem_toFinset]
  rw [← sameKeys, List.toFinset_card_of_nodup sums.nodup, List.length_map]

/-- As many addresses as entries are received exactly if every entry brings a new one. -/
theorem card_paidChunks_eq_iff (chunks : List (List Utxo)) :
    (keysOf (paidChunks cliArgs env chunks)).card = chunks.flatten.length ↔
      AllNew cliArgs env chunks := by
  have addresses := List.toFinset_card_le (chunks.flatten.filterMap (Utxo.address cliArgs env))
  have entries := List.length_filterMap_le (Utxo.address cliArgs env) chunks.flatten
  rw [keysOf_paidChunks]
  constructor
  · intro asMany
    refine ⟨List.filterMap_length_eq_length.mp (by omega), ?_⟩
    have noRepetition : (chunks.flatten.filterMap (Utxo.address cliArgs env)).toFinset.card =
        (chunks.flatten.filterMap (Utxo.address cliArgs env)).length := by omega
    exact Multiset.coe_nodup.mp (Multiset.toFinset_card_eq_card_iff_nodup.mp noRepetition)
  · intro allNew
    rw [List.toFinset_card_of_nodup allNew.distinct, List.filterMap_length_eq_length.mpr
      allNew.standard]

theorem LastOnly.take {chunks : List (List Utxo)} (lastOnly : LastOnly chunks) (count : ℕ) :
    LastOnly (chunks.take count) := by
  intro pairs isEarlier
  apply lastOnly pairs
  rw [List.dropLast_eq_take] at isEarlier ⊢
  rw [List.take_take] at isEarlier
  refine (List.take_prefix_take_left ?_).subset isEarlier
  rw [List.length_take]
  omega

theorem AllNew.take {chunks : List (List Utxo)} (allNew : AllNew cliArgs env chunks)
    (count : ℕ) : AllNew cliArgs env (chunks.take count) := by
  have sublist := (List.take_sublist count chunks).flatten
  exact ⟨fun utxo isEntry => allNew.standard utxo (sublist.subset isEntry),
    (sublist.filterMap _).nodup allNew.distinct⟩

/-- With one chunk that is not empty, and at the end, the addresses are counted once. -/
theorem sumOfKeys_of_lastOnly {chunks : List (List Utxo)} (lastOnly : LastOnly chunks) :
    sumOfKeys (paidChunks cliArgs env chunks) =
      (keysOf (paidChunks cliArgs env chunks)).card := by
  induction chunks using List.reverseRecOn with
  | nil => rfl
  | append_singleton earlier last _ =>
      rw [LastOnly, List.dropLast_concat] at lastOnly
      have nothing : earlier.flatten = [] := List.flatten_eq_nil_iff.mpr lastOnly
      have noKeys : keysOf (paidChunks cliArgs env earlier) = ∅ := by
        rw [keysOf_paidChunks, nothing]
        rfl
      rw [paidChunks, List.map_append, List.map_singleton, sumOfKeys_concat, ← paidChunks,
        (sumOfKeys_eq_zero_iff _).mpr noKeys, Nat.zero_add]

/-- Counted once, each with a new address, the entries come with the last chunk. -/
theorem lastOnly_of_sumOfKeys {chunks : List (List Utxo)} (allNew : AllNew cliArgs env chunks)
    (counted : sumOfKeys (paidChunks cliArgs env chunks) = chunks.flatten.length) :
    LastOnly chunks := by
  induction chunks using List.reverseRecOn with
  | nil => exact fun pairs isEarlier => absurd isEarlier List.not_mem_nil
  | append_singleton earlier last _ =>
      have asMany := (card_paidChunks_eq_iff (earlier ++ [last])).mpr allNew
      have both := sumOfKeys_concat (paidChunks cliArgs env earlier)
        (last.filterMap (Utxo.address cliArgs env))
      have joined : paidChunks cliArgs env earlier ++
          [last.filterMap (Utxo.address cliArgs env)] =
            paidChunks cliArgs env (earlier ++ [last]) := by
        rw [paidChunks, paidChunks, List.map_append, List.map_singleton]
      rw [joined, counted, asMany] at both
      have noKeys := (sumOfKeys_eq_zero_iff (paidChunks cliArgs env earlier)).mp (by omega)
      have earlierNew : AllNew cliArgs env earlier := by
        have taken := allNew.take earlier.length
        rwa [List.take_left] at taken
      have noEntries := (card_paidChunks_eq_iff earlier).mpr earlierNew
      rw [noKeys, Finset.card_empty] at noEntries
      rw [LastOnly, List.dropLast_concat]
      exact List.flatten_eq_nil_iff.mp (List.eq_nil_of_length_eq_zero noEntries.symm)

/-- The reports after some chunks. -/
theorem progressReports_sendChunks {before rest : List (List Utxo)}
    {allBalances final : List (String × Int)}
    (added : addAmounts [] (balanceDeltas cliArgs env before.flatten) = some allBalances)
    (noOverflow : addAmounts [] (balanceDeltas cliArgs env (before ++ rest).flatten) =
      some final) :
    progressReports cliArgs env before.length (sumOfKeys (paidChunks cliArgs env before))
        allBalances (sendChunks rest) =
      ((List.range' (before.length + 1) rest.length).filter
          (fun count => count % ibdBatchSize = 0) ++ [before.length + rest.length]).map
        fun count =>
          ⟨count, sumOfKeys (paidChunks cliArgs env ((before ++ rest).take count))⟩ := by
  induction rest generalizing before allBalances with
  | nil => simp [sendChunks, progressReports]
  | cons pairs rest ih =>
      have deltas : balanceDeltas cliArgs env (before ++ [pairs]).flatten =
          balanceDeltas cliArgs env before.flatten ++ balanceDeltas cliArgs env pairs := by
        rw [List.flatten_append, List.flatten_singleton, balanceDeltas, List.filterMap_append]
        rfl
      obtain ⟨more, addedMore, total⟩ : ∃ more,
          addAmounts allBalances (balanceDeltas cliArgs env pairs) = some more ∧
          addAmounts [] (balanceDeltas cliArgs env (before ++ [pairs]).flatten) = some more := by
        have whole : balanceDeltas cliArgs env (before ++ pairs :: rest).flatten =
            balanceDeltas cliArgs env before.flatten ++ (balanceDeltas cliArgs env pairs ++
              balanceDeltas cliArgs env rest.flatten) := by
          simp [balanceDeltas]
        rw [whole, addAmounts_append, added, Option.bind_some, addAmounts_append] at noOverflow
        obtain ⟨more, addedMore, _⟩ := Option.bind_eq_some_iff.mp noOverflow
        refine ⟨more, addedMore, ?_⟩
        rw [deltas, addAmounts_append, added, Option.bind_some, addedMore]
      have joined : before ++ [pairs] ++ rest = before ++ pairs :: rest := by
        rw [List.append_assoc, List.singleton_append]
      have next := ih total (joined ▸ noOverflow)
      have counted : sumOfKeys (paidChunks cliArgs env (before ++ [pairs])) =
          sumOfKeys (paidChunks cliArgs env before) + more.length := by
        rw [length_allBalances total, paidChunks, List.map_append, List.map_singleton,
          sumOfKeys_concat]
        rfl
      have received : (before ++ pairs :: rest).take (before.length + 1) = before ++ [pairs] := by
        rw [List.take_append, List.take_of_length_le (Nat.le_succ _), Nat.add_sub_cancel_left,
          List.take_succ_cons, List.take_zero]
      rw [counted, List.length_append, List.length_singleton, joined] at next
      rw [sendChunks, List.map_cons, List.cons_append, ← sendChunks, progressReports]
      simp only [addedMore, Bool.false_eq_true, if_false]
      rw [next, List.length_cons, List.range'_succ, List.filter_cons,
        (by omega : before.length + (rest.length + 1) = before.length + 1 + rest.length)]
      by_cases full : (before.length + 1) % ibdBatchSize = 0
      · simp only [full, if_true, decide_true, List.cons_append, List.map_cons]
        rw [received, counted]
      · simp only [full, if_false, decide_false, Bool.false_eq_true]

theorem receivedSet_sendChunks (chunks : List (List Utxo)) (chunkCount : ℕ) :
    receivedSet chunkCount (sendChunks chunks) = some chunks.flatten := by
  induction chunks generalizing chunkCount with
  | nil => rfl
  | cons pairs rest ih =>
      rw [sendChunks, List.map_cons, List.cons_append, ← sendChunks, receivedSet]
      simp [ih]

/-- A set that is received in full is added up. -/
theorem exists_addAmounts_of_done {chunks : List (List Utxo)} {db after : Db}
    {script left : Script} {completed : Bool}
    (ran : Session.run (receiveAndHandle cliArgs env 0 [] (sendChunks chunks)) db script =
      .done completed after left) :
    ∃ final, addAmounts [] (balanceDeltas cliArgs env chunks.flatten) = some final := by
  have receives := @receives_attemptEnd cliArgs env (sendChunks chunks) 0 []
  rw [receivedSet_sendChunks] at receives
  rw [receiveAndHandle_eq] at ran
  obtain ⟨_, _, _, _, ended⟩ := Session.done_of_run_bind ran
  cases attempt : attemptEnd cliArgs env 0 [] (sendChunks chunks) with
  | overflow =>
      rw [attempt] at ended
      contradiction
  | cutOff =>
      rw [attempt] at receives
      contradiction
  | received final =>
      rw [attempt] at receives
      obtain ⟨pairs, same, added⟩ := receives
      cases same
      exact ⟨final, added⟩

/-- The importer reports after every 99th chunk and at the end. It reports the number of
entries received if the last chunk alone has any and each brings a new address. Where one of the
two is met alone, it does not. -/
theorem progress_counts {chunks : List (List Utxo)} {db after : Db} {script left : Script}
    {completed : Bool} {reports : List ProgressReport}
    (ran : Session.run (receiveAndReport cliArgs env 0 0 [] (sendChunks chunks)) db script =
      .done (completed, reports) after left) :
    reports.map ProgressReport.chunkCount = reportedCounts chunks.length ∧
      (LastOnly chunks ∧ AllNew cliArgs env chunks → ∀ report ∈ reports,
        report.totalUtxos = (chunks.take report.chunkCount).flatten.length) ∧
      ((∀ report ∈ reports,
          report.totalUtxos = (chunks.take report.chunkCount).flatten.length) →
        (LastOnly chunks ↔ AllNew cliArgs env chunks)) := by
  have reported : reports = (reportedCounts chunks.length).map fun count =>
      ⟨count, sumOfKeys (paidChunks cliArgs env (chunks.take count))⟩ := by
    rw [receiveAndReport_eq] at ran
    obtain ⟨_, _, _, handled, returned⟩ := Session.done_of_run_bind ran
    obtain ⟨final, added⟩ := exists_addAmounts_of_done handled
    have whole := @progressReports_sendChunks cliArgs env [] chunks [] final rfl added
    cases returned
    rw [List.nil_append, List.length_nil, Nat.zero_add, Nat.zero_add] at whole
    exact whole
  subst reported
  refine ⟨?_, ?_, ?_⟩
  · rw [List.map_map]
    exact List.map_id' _
  · rintro ⟨lastOnly, allNew⟩
    rw [List.forall_mem_map]
    intro count _
    dsimp only
    rw [sumOfKeys_of_lastOnly (lastOnly.take count)]
    exact (card_paidChunks_eq_iff _).mpr (allNew.take count)
  · rw [List.forall_mem_map]
    intro counted
    have whole := counted chunks.length (List.mem_append_right _ (List.mem_singleton_self _))
    simp only [List.take_length] at whole
    constructor
    · intro lastOnly
      rw [sumOfKeys_of_lastOnly lastOnly] at whole
      exact (card_paidChunks_eq_iff chunks).mp whole
    · exact fun allNew => lastOnly_of_sumOfKeys allNew whole

end Reports

/-- Two scripts have different addresses. -/
def twoPayeesEnv : ImportEnv where
  extractAddress scriptPublicKey :=
    if scriptPublicKey.script = [1] then some "payee" else some "payer"
  hostOf _ := none
  defaultP2pPort _ := 0
  hashOrder := .listed

/-- An empty chunk, and one that pays two addresses. -/
def twoPayees : List (List Utxo) := [[], [⟨7, 0, 5, ⟨0, [1]⟩⟩, ⟨8, 0, 3, ⟨0, [2]⟩⟩]]

theorem twoPayees_counted : ∃ reports after left,
    Session.run (receiveAndReport .standard twoPayeesEnv 0 0 [] (sendChunks twoPayees)) Db.empty
        (fun _ => .succeeds) = .done (true, reports) after left ∧
      ∀ report ∈ reports,
        report.totalUtxos = (twoPayees.take report.chunkCount).flatten.length := by
  refine ⟨_, _, _, rfl, (@progress_counts .standard twoPayeesEnv twoPayees Db.empty _
    (fun _ => .succeeds) _ true _ rfl).2.1 ⟨?_, ?_, ?_⟩⟩
  · unfold LastOnly
    decide
  · decide
  · decide

/-- Two outputs of one address. -/
def twoEntries : List (List Utxo) := [[⟨7, 0, 5, ⟨0, [1]⟩⟩, ⟨8, 0, 5, ⟨0, [1]⟩⟩]]

/-- They are reported as one. -/
theorem twoEntries_reported_as_one : ∃ reports after left,
    Session.run (receiveAndReport .standard scriptEnv 0 0 [] (sendChunks twoEntries)) Db.empty
        (fun _ => .succeeds) = .done (true, reports) after left ∧
      ¬ ∀ report ∈ reports,
        report.totalUtxos = (twoEntries.take report.chunkCount).flatten.length := by
  refine ⟨_, _, _, rfl, ?_⟩
  decide

end VecnoIndexer
