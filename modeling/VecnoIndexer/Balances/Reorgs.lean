import VecnoIndexer.Balances.Unspent
import VecnoIndexer.Checkpoint.ExactlyOnce
import VecnoIndexer.VirtualChain.Polls

/-!
# Balances across reorgs

Batches of the virtual chain move the acceptance table while saves move the
balances from one blue score to the next.  A save adds what is accepted above the
previous checkpoint's score when it runs.  The balances are the unspent outputs
as long as what an earlier save counted is what is still accepted below; nothing
takes back a transaction that was counted and then removed by a reorg.
-/

namespace VecnoIndexer

open VecnoIndexer.Sql
open VecnoIndexer.Collections
open VecnoIndexer.Chain
open VecnoIndexer.Transition
open VecnoIndexer.Ledger

/-! ## Batches and saves -/

/-- The database, the last chain block committed, and the checkpoint loop.
`saved` is the database as the last save left it; no statement reads it. -/
structure ReorgWorld where
  db : Db
  startHash : Hash
  loop : CheckpointLoop
  saved : Db

/-- What happens in a run: all statements are executed. -/
inductive ReorgEvent where
  /-- A batch of the virtual chain processor. -/
  | batch (completion : Reordering (List TransactionAcceptance)) (removed added : List Hash)
      (accepted : List AcceptedTransactionIds)
  /-- The checkpoint loop saves a candidate. -/
  | save (hashOrder : Reordering (String × Int)) (checkpoint : CheckpointBlock) (recordNow : ℕ)

def ReorgWorld.step (cliArgs : CliArgs) (world : ReorgWorld) : ReorgEvent → ReorgWorld
  | .batch completion removed added accepted =>
      { world with
        db := (Session.run (commitBatch cliArgs completion removed added accepted) world.db
          fun _ => .succeeds).state
        startHash := added.getLast?.getD world.startHash }
  | .save hashOrder checkpoint recordNow =>
      let after := CheckpointWorld.ofExec
        (Session.run (world.loop.save hashOrder checkpoint recordNow) world.db
          fun _ => .succeeds)
      { world with
        db := after.db
        loop := after.loop.getD world.loop
        saved := after.db }

/-! ## What the node promises -/

/-- A node whose blocks have blue scores, which do not decrease along a chain. -/
structure ScoredNode extends ChainNode where
  blueScore : Hash → Int
  parent_le : ∀ block parent, tree.parent block = some parent → blueScore parent ≤ blueScore block

/-- The rows of all chain blocks are committed. -/
def Db.StoresScores (db : Db) (node : ScoredNode) : Prop :=
  ∀ block, node.tree.OnChain block → db.scoreOf block = some (node.blueScore block)

/-- A batch removes the end of the chain it starts from and adds blocks that
continue the rest. At a save, both checkpoints have scores, no sum overflows, and
the accepted transactions spend validly. -/
def ReorgWorld.Admits (node : ScoredNode) (world : ReorgWorld) : ReorgEvent → Prop
  | .batch _ removed added accepted =>
      ∃ common reverted, node.tree.IsPath (common ++ reverted) ∧
        node.tree.tip (common ++ reverted) = world.startHash ∧
        removed = reverted.reverse ∧ node.tree.IsPath (common ++ added) ∧ added ≠ [] ∧
        accepted = node.acceptedIds added
  | .save _ checkpoint _ =>
      world.db.SpendsValid world.db.accepted ∧
        ∃ previous lower upper, world.loop.previousCheckpoint = some previous ∧
          world.db.CheckpointScore previous lower ∧
          world.db.CheckpointScore checkpoint.hash.encode upper ∧
          DeltaFits world.db lower upper

/-- The transactions counted by the last save are those now accepted, up to both
checkpoints' scores. -/
def ReorgWorld.StillCounted (world : ReorgWorld) : ReorgEvent → Prop
  | .batch _ _ _ _ => True
  | .save _ checkpoint _ =>
      ∀ previous lower upper, world.loop.previousCheckpoint = some previous →
        world.db.CheckpointScore previous lower →
        world.db.CheckpointScore checkpoint.hash.encode upper →
        ∀ transactionId, world.saved.acceptedUpTo lower transactionId =
          world.db.acceptedUpTo (min lower upper) transactionId

/-- The world right after a save of the last chain block, with right balances. -/
structure ReorgWorld.Started (node : ScoredNode) (world : ReorgWorld) : Prop where
  follows : ∃ path, node.tree.IsPath path ∧ node.tree.tip path = world.startHash ∧
    node.Follows path world.db.transactionsAcceptances
  imported : node.ImportedBelow world.db.transactionsAcceptances
  scores : world.db.StoresScores node
  remembers : world.loop.previousCheckpoint = some world.startHash.encode
  scored : ∃ score, world.db.scoreOf world.startHash = some score
  saved_eq : world.saved = world.db
  valid : world.db.SpendsValid world.db.accepted
  balance : ∀ address, world.db.balanceOf address = world.db.unspentBalance address

/-! ## What a run keeps -/

/-- The acceptance table follows the chain, and the balances are what the last
save counted. -/
structure Counts (node : ScoredNode) (world : ReorgWorld) (path : List Hash)
    (previous : String) (score : Int) : Prop where
  isPath : node.tree.IsPath path
  tip_eq : node.tree.tip path = world.startHash
  follows : node.Follows path world.db.transactionsAcceptances
  imported : node.ImportedBelow world.db.transactionsAcceptances
  scores : world.db.StoresScores node
  outputs : world.saved.transactionsOutputs = world.db.transactionsOutputs
  inputs : world.saved.transactionsInputs = world.db.transactionsInputs
  remembers : world.loop.previousCheckpoint = some previous
  scored : world.db.CheckpointScore previous score
  balance : ∀ address, world.db.balanceOf address =
    world.saved.ledgerOf (world.saved.acceptedUpTo score) address

theorem checkpointScore_encode_iff {db : Db} {hash : Hash} {score : Int} :
    db.CheckpointScore hash.encode score ↔ db.scoreOf hash = some score := by
  unfold Db.CheckpointScore
  constructor
  · rintro ⟨other, text, scored⟩
    rw [Hash.fromStr_encode] at text
    cases text
    exact scored
  · exact fun scored => ⟨hash, Hash.fromStr_encode hash, scored⟩

theorem ledgerOf_congr {first second : Db}
    (outputs : first.transactionsOutputs = second.transactionsOutputs)
    (inputs : first.transactionsInputs = second.transactionsInputs)
    {firstAccepted secondAccepted : Hash → Bool}
    (same : ∀ transactionId, firstAccepted transactionId = secondAccepted transactionId)
    (address : String) :
    first.ledgerOf firstAccepted address = second.ledgerOf secondAccepted address := by
  rw [funext same]
  unfold Db.ledgerOf
  rw [outputs, inputs]

theorem Db.SameChain.spendsValid_iff {first second : Db} (same : first.SameChain second) :
    first.SpendsValid first.accepted ↔ second.SpendsValid second.accepted := by
  have accepted : first.accepted = second.accepted := by
    funext transactionId
    rw [Db.accepted, Db.accepted, same.acceptances]
  unfold Db.SpendsValid
  rw [accepted, same.outputs, same.inputs]

/-- Nothing lies between a score and a lower one. -/
theorem netDelta_min (db : Db) (lower upper : Int) (address : String) :
    netDelta db (min lower upper) upper address = netDelta db lower upper address := by
  rcases le_total lower upper with ordered | reversed
  · rw [min_eq_left ordered]
  · have empty (sources : List DeltaSource) : sumBetween sources lower upper address = 0 := by
      apply List.sum_eq_zero
      intro value valueMem
      obtain ⟨source, _, rfl⟩ := List.mem_map.mp valueMem
      unfold DeltaSource.contribution
      cases source.blueScore with
      | none => simp [scoreBetween]
      | some score =>
          apply if_neg
          rintro ⟨_, between⟩
          simp only [scoreBetween, decide_eq_true_eq] at between
          omega
    rw [min_eq_right reversed, netDelta_self, netDelta, empty, empty, sub_zero]

section Run

variable {node : ScoredNode} {cliArgs : CliArgs} {world : ReorgWorld} {path : List Hash}
  {previous : String} {score : Int}

/-- At the score of the tip everything accepted on the chain counts. -/
theorem acceptedUpTo_tip {db : Db} (isPath : node.tree.IsPath path)
    (follows : node.Follows path db.transactionsAcceptances) (scores : db.StoresScores node)
    (tipScore : db.scoreOf (node.tree.tip path) = some score) (transactionId : Hash) :
    db.acceptedUpTo score transactionId = db.accepted transactionId := by
  unfold Db.acceptedUpTo Db.accepted
  cases found : db.transactionsAcceptances.lookup transactionId with
  | none => rfl
  | some row =>
      cases rowBlock : row.blockHash with
      | none => simp [rowBlock]
      | some blockHash =>
          have stored := (Table.lookup_eq_some_iff.mp found).1
          have accepted := (follows row).mp ⟨stored, by simp [rowBlock]⟩
          obtain ⟨block, blockMem, blockEq⟩ := accepted.blockHash
          rw [rowBlock] at blockEq
          cases blockEq
          have nonempty : path ≠ [] := List.ne_nil_of_mem blockMem
          have blockScore := scores blockHash ⟨path, isPath, blockMem⟩
          have ownScore := scores _ ⟨path, isPath, node.tree.tip_mem nonempty⟩
          have below : node.blueScore blockHash ≤ node.blueScore (node.tree.tip path) :=
            isPath.le_tip node.parent_le blockMem
          rw [tipScore] at ownScore
          cases ownScore
          simp [rowBlock, blockScore, below]

theorem ReorgWorld.Started.counts (started : world.Started node) :
    ∃ path score, Counts node world path world.startHash.encode score := by
  obtain ⟨path, isPath, tipEq, follows⟩ := started.follows
  obtain ⟨score, scored⟩ := started.scored
  refine ⟨path, score, isPath, tipEq, follows, started.imported, started.scores, ?_, ?_,
    started.remembers, checkpointScore_encode_iff.mpr scored, ?_⟩
  · rw [started.saved_eq]
  · rw [started.saved_eq]
  · intro address
    have tipScore : world.db.scoreOf (node.tree.tip path) = some score := by
      rw [tipEq]
      exact scored
    rw [started.saved_eq, started.balance, Db.unspentBalance,
      ← ledgerOf_eq_unspentOf started.valid]
    exact ledgerOf_congr rfl rfl
      (fun id => (acceptedUpTo_tip isPath follows started.scores tipScore id).symm) address

/-- A batch moves the chain and leaves the balances. -/
theorem Counts.batch (counts : Counts node world path previous score)
    (enabled : cliArgs.isDisabled .transactionAcceptance = false)
    {completion : Reordering (List TransactionAcceptance)} {removed added : List Hash}
    {accepted : List AcceptedTransactionIds}
    (admits : world.Admits node (.batch completion removed added accepted)) :
    ∃ next, Counts node (world.step cliArgs (.batch completion removed added accepted)) next
      previous score := by
  obtain ⟨common, reverted, startPath, startTip, rfl, nextPath, nonempty, rfl⟩ := admits
  have pathEq : path = common ++ reverted :=
    counts.isPath.eq_of_tip_eq startPath (counts.tip_eq.trans startTip.symm)
  subst pathEq
  obtain ⟨count, acceptances, completes, follows, imported⟩ :=
    completes_commitBatch enabled completion startPath nextPath counts.follows counts.imported
  obtain ⟨rest, _, ran⟩ := completes (fun _ => .succeeds) fun _ => rfl
  refine ⟨common ++ added, ?_⟩
  simp only [ReorgWorld.step, ran, Exec.state]
  exact {
    isPath := nextPath
    tip_eq := by simp [BlockTree.tip, nonempty, List.getLast?_eq_getLast_of_ne_nil]
    follows
    imported
    scores := counts.scores
    outputs := counts.outputs
    inputs := counts.inputs
    remembers := counts.remembers
    scored := counts.scored
    balance := counts.balance }

/-- A save counts what is accepted up to the score of its checkpoint. -/
theorem Counts.save (counts : Counts node world path previous score) (cliArgs : CliArgs)
    {hashOrder : Reordering (String × Int)} {checkpoint : CheckpointBlock} {recordNow : ℕ}
    (admits : world.Admits node (.save hashOrder checkpoint recordNow))
    (still : world.StillCounted (.save hashOrder checkpoint recordNow)) :
    (∃ next, Counts node (world.step cliArgs (.save hashOrder checkpoint recordNow)) path
      checkpoint.hash.encode next) ∧
    (world.step cliArgs (.save hashOrder checkpoint recordNow)).db.SameChain world.db := by
  obtain ⟨_, stored, lower, upper, remembers, fromScore, toScore, fits⟩ := admits
  cases counts.remembers.symm.trans remembers
  have lowerEq : lower = score := fromScore.unique counts.scored
  subst lowerEq
  have same := still previous lower upper remembers fromScore toScore
  obtain ⟨balances, rest, restUp, updated, balance⟩ :=
    CheckpointLoop.run_updateBalances_of_up hashOrder fromScore toScore fits
      (fun _ => rfl : Script.Up fun _ => .succeeds)
  have cases := CheckpointLoop.save_cases hashOrder world.loop checkpoint recordNow world.db
    fun _ => .succeeds
  rw [remembers, updated] at cases
  rcases cases with ⟨middle, left, equal, _, saved⟩ | ⟨notSaved, _⟩
  · cases equal
    simp only [ReorgWorld.step, saved, Option.getD_some]
    refine ⟨⟨upper, ?_⟩, ⟨rfl, rfl, rfl, rfl⟩⟩
    exact {
      isPath := counts.isPath
      tip_eq := counts.tip_eq
      follows := counts.follows
      imported := counts.imported
      scores := counts.scores
      outputs := rfl
      inputs := rfl
      remembers := rfl
      scored := toScore
      balance := fun address => by
        change balanceIn balances address =
          world.db.ledgerOf (world.db.acceptedUpTo upper) address
        calc balanceIn balances address
            = world.db.balanceOf address + netDelta world.db lower upper address :=
              balance address
          _ = world.db.ledgerOf (world.db.acceptedUpTo (min lower upper)) address +
                netDelta world.db (min lower upper) upper address := by
              rw [counts.balance, ledgerOf_congr counts.outputs counts.inputs same,
                netDelta_min]
          _ = world.db.ledgerOf (world.db.acceptedUpTo upper) address :=
              (ledgerOf_acceptedUpTo world.db (min_le_right lower upper) address).symm }
  · exact absurd (restUp 0) (notSaved _ _ rfl)

/-- Once the tip of the chain is saved, the balances are the unspent outputs. -/
theorem Counts.balanceOf_eq {hash : Hash} (counts : Counts node world path hash.encode score)
    (tipSaved : world.startHash = hash) (current : world.saved = world.db)
    (valid : world.db.SpendsValid world.db.accepted) (address : String) :
    world.db.balanceOf address = world.db.unspentBalance address := by
  have tipScore : world.db.scoreOf (node.tree.tip path) = some score := by
    rw [counts.tip_eq, tipSaved]
    exact checkpointScore_encode_iff.mp counts.scored
  calc world.db.balanceOf address
      = world.db.ledgerOf (world.db.acceptedUpTo score) address := by
        rw [counts.balance, current]
    _ = world.db.ledgerOf world.db.accepted address :=
        ledgerOf_congr rfl rfl
          (acceptedUpTo_tip counts.isPath counts.follows counts.scores tipScore) address
    _ = world.db.unspentBalance address := ledgerOf_eq_unspentOf valid address

/-- The step lemma. -/
theorem Counts.step (counts : Counts node world path previous score)
    (enabled : cliArgs.isDisabled .transactionAcceptance = false) {event : ReorgEvent}
    (admits : world.Admits node event) (still : world.StillCounted event) :
    ∃ next checkpoint nextScore,
      Counts node (world.step cliArgs event) next checkpoint nextScore := by
  cases event with
  | batch completion removed added accepted =>
      obtain ⟨next, after⟩ := counts.batch enabled admits
      exact ⟨next, previous, score, after⟩
  | save hashOrder checkpoint recordNow =>
      obtain ⟨⟨nextScore, after⟩, _⟩ := counts.save cliArgs admits still
      exact ⟨path, _, nextScore, after⟩

/-- After every save of the last chain block, in every run whose saves find what
the save before counted still accepted, each balance is the sum of the address's
unspent outputs. -/
theorem unspentBalance_of_run {events : List ReorgEvent} {hashOrder : Reordering (String × Int)}
    {checkpoint : CheckpointBlock} {recordNow : ℕ}
    (enabled : cliArgs.isDisabled .transactionAcceptance = false)
    (started : world.Started node)
    (steps : Along (ReorgWorld.step cliArgs)
      (fun middle event => middle.Admits node event ∧ middle.StillCounted event) world
      (events ++ [.save hashOrder checkpoint recordNow]))
    (last : checkpoint.hash = (runFrom (ReorgWorld.step cliArgs) world events).startHash)
    (address : String) :
    (runFrom (ReorgWorld.step cliArgs) world
        (events ++ [.save hashOrder checkpoint recordNow])).db.balanceOf address =
      (runFrom (ReorgWorld.step cliArgs) world
        (events ++ [.save hashOrder checkpoint recordNow])).db.unspentBalance address := by
  obtain ⟨before, ⟨admits, still⟩, _⟩ := along_append.mp steps
  have kept : ∀ middle event,
      (∃ path previous score, Counts node middle path previous score) →
      middle.Admits node event ∧ middle.StillCounted event →
      ∃ path previous score, Counts node (middle.step cliArgs event) path previous score := by
    rintro middle event ⟨path, previous, score, counts⟩ ⟨eventAdmits, eventStill⟩
    exact counts.step enabled eventAdmits eventStill
  obtain ⟨path, score, initial⟩ := started.counts
  obtain ⟨path, previous, score, counts⟩ :=
    invariant_of_along kept ⟨path, _, score, initial⟩ before
  obtain ⟨⟨next, after⟩, same⟩ := counts.save cliArgs admits still
  rw [runFrom_append]
  exact after.balanceOf_eq last.symm rfl (same.spendsValid_iff.mpr admits.1) address

end Run

/-! ## A payment that a reorg takes back -/

def forkScore (block : Hash) : Int :=
  if block = 2 then 1 else if block = 3 then 2 else if block = 4 ∨ block = 5 then 3 else 0

/-- The fork with blue scores. -/
def forkScored : ScoredNode where
  toChainNode := forkNode
  blueScore := forkScore
  parent_le := by
    intro block parent parentEq
    have all : ([(2, 1), (4, 1), (3, 2), (5, 3)] : List (Hash × Hash)).all
        (fun pair => forkScore pair.2 ≤ forkScore pair.1) = true := by decide
    exact of_decide_eq_true (List.all_eq_true.mp all _ (forkTree_parent parentEq))

/-- Transaction 10, accepted by block 2, pays 5 to `payee`; transaction 13, which
block 5 accepts, spends it. -/
def forkDb : Db :=
  { Db.empty with
    vars := Table.empty.insertAll [⟨varKeyBlockCheckpoint, Hash.encode 3⟩]
    blocks := Table.empty.insertAll
      [scoredBlock 1 0, scoredBlock 2 1, scoredBlock 3 2, scoredBlock 4 3, scoredBlock 5 3]
    transactionsAcceptances := Table.empty.insertAll forkRows
    transactionsOutputs := Table.empty.insertAll [⟨10, 0, some 5, none, some "payee", none⟩]
    transactionsInputs := Table.empty.insertAll
      [⟨13, 0, some 10, some 0, none, none, none, none, none⟩]
    balances := Table.empty.insertAll [⟨"payee", 5⟩] }

def forkReorgWorld : ReorgWorld where
  db := forkDb
  startHash := 3
  loop := CheckpointLoop.start 0 (some (Hash.encode 3))
  saved := forkDb

theorem forkDb_scores : forkDb.StoresScores forkScored := by
  intro block onChain
  obtain ⟨parent, parentEq⟩ := onChain.exists_parent
  have all : ([(2, 1), (4, 1), (3, 2), (5, 3)] : List (Hash × Hash)).all
      (fun pair => forkDb.scoreOf pair.1 = some (forkScore pair.1)) = true := by decide +kernel
  exact of_decide_eq_true (List.all_eq_true.mp all _ (forkTree_parent parentEq))

theorem forkDb_valid : forkDb.SpendsValid forkDb.accepted := by
  constructor
  · exact List.pairwise_singleton _ _
  · decide

theorem forkDb_balance (address : String) :
    forkDb.balanceOf address = forkDb.unspentBalance address := by
  have outputs : forkDb.transactionsOutputs.rows =
      [⟨10, 0, some 5, none, some "payee", none⟩] := by decide
  have balances : forkDb.balances.rows = [⟨"payee", 5⟩] := by decide
  rw [Db.unspentBalance, Db.unspentOf, outputs]
  by_cases payee : "payee" = address
  · subst payee
    decide
  · simp [total, amountTo, Db.balanceOf, balanceIn, Table.lookup, balances,
      Balance.primaryKey, payee]

theorem forkReorgWorld_started : forkReorgWorld.Started forkScored := by
  obtain ⟨vcp, path, running, isPath, tipEq, follows, imported⟩ := forkWorld_follows
  cases running
  exact {
    follows := ⟨path, isPath, tipEq, follows⟩
    imported
    scores := forkDb_scores
    remembers := rfl
    scored := ⟨2, by decide⟩
    saved_eq := rfl
    valid := forkDb_valid
    balance := forkDb_balance }

/-- The chain moves from blocks 2 and 3 to block 4. -/
def takeBack : ReorgEvent :=
  .batch .listed [3, 2] [4] [⟨4, [12]⟩]

def saveBlock (hash : Hash) (blueScore : ℕ) : ReorgEvent :=
  .save .listed ⟨.vcp, hash, 0, 0, blueScore⟩ 0

theorem takeBack_admits : forkReorgWorld.Admits forkScored takeBack := by
  refine ⟨[], [2, 3], ?_, by decide, rfl, ?_, by decide, rfl⟩ <;>
    · unfold BlockTree.IsPath
      decide

def takenBack : ReorgWorld := forkReorgWorld.step .standard takeBack

theorem takenBack_fits : DeltaFits takenBack.db 2 3 := by
  have balances : ∀ row ∈ takenBack.db.balances.rows, row.scriptPublicKeyAddress = "payee" := by
    decide +kernel
  apply deltaFits_of_payee _ balances <;> decide +kernel

/-- After the reorg is saved, `payee` still has the 5 that no accepted transaction
pays. -/
theorem takenBack_unbalanced :
    forkReorgWorld.Started forkScored ∧
      Along (ReorgWorld.step .standard) (fun world event => world.Admits forkScored event)
        forkReorgWorld [takeBack, saveBlock 4 3] ∧
      takenBack.startHash = 4 ∧
      ¬ ∀ address, (takenBack.step .standard (saveBlock 4 3)).db.balanceOf address =
        (takenBack.step .standard (saveBlock 4 3)).db.unspentBalance address := by
  refine ⟨forkReorgWorld_started, ⟨takeBack_admits, ⟨?_, ?_⟩, trivial⟩, by decide +kernel, ?_⟩
  · change takenBack.db.SpendsValid takenBack.db.accepted
    constructor <;> decide +kernel
  · exact ⟨Hash.encode 3, 2, 3, rfl, checkpointScore_encode_iff.mpr (by decide +kernel),
      checkpointScore_encode_iff.mpr (by decide +kernel), takenBack_fits⟩
  · intro balanced
    have atPayee := balanced "payee"
    revert atPayee
    decide +kernel

/-! ## A reorg above the saved checkpoint -/

/-- Transaction 9, which was imported, has paid 4 to `payee`. Transaction 12 spends that and pays 7,
and transaction 10 pays 5. -/
def baseDb : Db :=
  { forkDb with
    vars := Table.empty.insertAll [⟨varKeyBlockCheckpoint, Hash.encode 1⟩]
    transactionsAcceptances := Table.empty.insertAll [⟨some 9, none⟩]
    transactionsOutputs := Table.empty.insertAll
      [⟨9, 0, some 4, none, some "payee", none⟩, ⟨10, 0, some 5, none, some "payee", none⟩,
        ⟨12, 0, some 7, none, some "payee", none⟩]
    transactionsInputs := Table.empty.insertAll
      [⟨12, 0, some 9, some 0, none, none, none, none, none⟩]
    balances := Table.empty.insertAll [⟨"payee", 4⟩] }

def baseWorld : ReorgWorld where
  db := baseDb
  startHash := 1
  loop := CheckpointLoop.start 0 (some (Hash.encode 1))
  saved := baseDb

theorem baseDb_balance (address : String) :
    baseDb.balanceOf address = baseDb.unspentBalance address := by
  have outputs : baseDb.transactionsOutputs.rows =
      [⟨9, 0, some 4, none, some "payee", none⟩, ⟨10, 0, some 5, none, some "payee", none⟩,
        ⟨12, 0, some 7, none, some "payee", none⟩] := by decide
  have balances : baseDb.balances.rows = [⟨"payee", 4⟩] := by decide
  by_cases payee : "payee" = address
  · subst payee
    decide
  · simp [Db.unspentBalance, Db.unspentOf, outputs, total, amountTo, Db.balanceOf, balanceIn,
      Table.lookup, balances, Balance.primaryKey, payee]

theorem baseDb_valid : baseDb.SpendsValid baseDb.accepted := by
  constructor <;> decide

theorem baseWorld_started : baseWorld.Started forkScored where
  follows := by
    have rows : baseDb.transactionsAcceptances.rows = [⟨some 9, none⟩] := by decide
    refine ⟨[], BlockTree.isPath_nil _, rfl, fun row => ⟨?_, ?_⟩⟩
    · rintro ⟨rowMem, hasBlock⟩
      change row ∈ baseDb.transactionsAcceptances at rowMem
      rw [Table.mem_def, rows, List.mem_singleton] at rowMem
      rw [rowMem] at hasBlock
      contradiction
    · rintro ⟨block, onPath, _⟩
      exact absurd onPath List.not_mem_nil
  imported := by
    have rows : baseDb.transactionsAcceptances.rows = [⟨some 9, none⟩] := by decide
    intro row rowMem noBlock transactionId rowId block _ accepted
    change transactionId ∈ forkAccepts block at accepted
    change row ∈ baseDb.transactionsAcceptances at rowMem
    rw [Table.mem_def, rows, List.mem_singleton] at rowMem
    rw [mem_forkAccepts_iff] at accepted
    cases rowMem
    cases rowId
    revert accepted
    simp
  scores := fun block onChain => forkDb_scores block onChain
  remembers := rfl
  scored := ⟨0, by decide⟩
  saved_eq := rfl
  valid := baseDb_valid
  balance := baseDb_balance

/-- The chain grows by blocks 2 and 3. -/
def grow : ReorgEvent :=
  .batch .listed [] [2, 3] [⟨2, [10]⟩, ⟨3, [11]⟩]

def grown : ReorgWorld := baseWorld.step .standard grow

/-- Blocks 2 and 3 were not saved when block 4 takes their place. -/
def regrown : ReorgWorld := grown.step .standard takeBack

theorem grow_admits : baseWorld.Admits forkScored grow := by
  refine ⟨[], [], ?_, by decide, rfl, ?_, by decide, rfl⟩ <;>
    · unfold BlockTree.IsPath
      decide

theorem regrow_admits : grown.Admits forkScored takeBack := by
  refine ⟨[], [2, 3], ?_, by decide +kernel, rfl, ?_, by decide, rfl⟩ <;>
    · unfold BlockTree.IsPath
      decide

theorem regrown_fits : DeltaFits regrown.db 0 3 := by
  have balances : ∀ row ∈ regrown.db.balances.rows, row.scriptPublicKeyAddress = "payee" := by
    decide +kernel
  apply deltaFits_of_payee _ balances <;> decide +kernel

theorem regrown_stillCounted : regrown.StillCounted (saveBlock 4 3) := by
  rintro previous lower upper remembers fromScore toScore transactionId
  cases remembers
  have lowerEq : lower = 0 := fromScore.unique (checkpointScore_encode_iff.mpr (by decide +kernel))
  have upperEq : upper = 3 := toScore.unique (checkpointScore_encode_iff.mpr (by decide +kernel))
  subst lowerEq upperEq
  have rows : regrown.db.transactionsAcceptances.rows =
      baseDb.transactionsAcceptances.rows ++ [⟨some 12, some 4⟩] := by decide +kernel
  have blocks : regrown.db.blocks.rows = baseDb.blocks.rows := by decide +kernel
  have scores (hash : Hash) : regrown.db.scoreOf hash = baseDb.scoreOf hash := by
    simp only [Db.scoreOf, Table.lookup, blocks]
  by_cases isNew : transactionId = 12
  · subst isNew
    decide +kernel
  · have notNew : (12#256 : Hash) ≠ transactionId := fun same => isNew same.symm
    have lookup : regrown.db.transactionsAcceptances.lookup transactionId =
        baseDb.transactionsAcceptances.lookup transactionId := by
      simp [Table.lookup, rows, List.find?_append, TransactionAcceptance.uniqueKey, notNew]
    change baseDb.acceptedUpTo 0 transactionId = regrown.db.acceptedUpTo 0 transactionId
    simp only [Db.acceptedUpTo, lookup, scores]

/-- The balances follow the chain that has changed above the saved checkpoint. -/
theorem regrown_balanced :
    (runFrom (ReorgWorld.step .standard) baseWorld
        ([grow, takeBack] ++ [saveBlock 4 3])).db.balanceOf =
      (runFrom (ReorgWorld.step .standard) baseWorld
        ([grow, takeBack] ++ [saveBlock 4 3])).db.unspentBalance ∧
    (runFrom (ReorgWorld.step .standard) baseWorld
        ([grow, takeBack] ++ [saveBlock 4 3])).db.balanceOf "payee" = 7 := by
  have steps : Along (ReorgWorld.step .standard)
      (fun world event => world.Admits forkScored event ∧ world.StillCounted event)
      baseWorld ([grow, takeBack] ++ [saveBlock 4 3]) := by
    refine ⟨⟨grow_admits, trivial⟩, ⟨regrow_admits, trivial⟩, ⟨⟨?_, ?_⟩, ?_⟩, trivial⟩
    · change regrown.db.SpendsValid regrown.db.accepted
      constructor <;> decide +kernel
    · exact ⟨Hash.encode 1, 0, 3, rfl, checkpointScore_encode_iff.mpr (by decide +kernel),
        checkpointScore_encode_iff.mpr (by decide +kernel), regrown_fits⟩
    · exact regrown_stillCounted
  exact ⟨funext (unspentBalance_of_run rfl baseWorld_started steps (by decide +kernel)),
    by decide +kernel⟩

end VecnoIndexer
