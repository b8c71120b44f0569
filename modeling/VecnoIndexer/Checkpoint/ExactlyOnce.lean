import VecnoIndexer.Balances.Correctness
import VecnoIndexer.Checkpoint.Safety

/-!
# Balances and the persisted checkpoint

A save changes the balances, then the stored checkpoint, then the checkpoint the
loop remembers.  When all its statements are executed, or none from the first
write on, or there is nothing to write, balances and stored checkpoint stay in
step over every run with any number of restarts.  An executed update followed by
a checkpoint that is not written takes them apart.
-/

namespace VecnoIndexer

open VecnoIndexer.Sql
open VecnoIndexer.Collections
open VecnoIndexer.Transition

/-! ## Updates with nothing to write -/

/-- Deltas that cancel out are not written. -/
theorem state_applyDeltas_of_netDelta_eq_zero (hashOrder : Reordering (String × Int)) {db : Db}
    {lower upper : Int} {created spent : List DeltaRow}
    (createdLists : Lists created (sumBetween (createdSources db) lower upper))
    (spentLists : Lists spent (sumBetween (spentSources db) lower upper))
    (zero : ∀ address, netDelta db lower upper address = 0) (script : Script) :
    (Session.run (applyDeltas hashOrder created spent) db script).state = db := by
  unfold applyDeltas
  cases merged : mergeDeltas created spent with
  | none => rfl
  | some deltas =>
      rw [Session.orDie, Session.pure_bind, updateBalancesIncremental_eq]
      split
      · rfl
      · cases sortByMagnitude deltas with
        | none => rfl
        | some sorted =>
            cases aggregated : aggregateDeltas deltas with
            | none => rfl
            | some entries =>
                have noEntries : entries = [] := by
                  apply List.eq_nil_iff_forall_not_mem.mpr
                  rintro ⟨address, value⟩ listed
                  obtain ⟨nonzero, valueEq⟩ := (mem_of_aggregateDeltas aggregated).mp listed
                  rw [entrySum_of_mergeDeltas createdLists spentLists merged] at valueEq
                  exact nonzero (valueEq.trans (zero address))
                have noChunks : balanceChunks hashOrder entries = [] := by
                  rw [balanceChunks, noEntries, List.perm_nil.mp (hashOrder.perm []), chunks_nil]
                simp only [Session.orDie, Session.pure_bind, noChunks]
                rfl

/-- An update over an interval without net changes writes nothing, whatever
happens to its statements. -/
theorem state_updateBalancesFromUtxoChanges_of_netDelta_eq_zero
    (hashOrder : Reordering (String × Int)) {fromCheckpoint toCheckpoint : String} {db : Db}
    {lower upper : Int} (fromScore : db.CheckpointScore fromCheckpoint lower)
    (toScore : db.CheckpointScore toCheckpoint upper) (fits : DeltaFits db lower upper)
    (zero : ∀ address, netDelta db lower upper address = 0) (script : Script) :
    (Session.run (updateBalancesFromUtxoChanges hashOrder fromCheckpoint toCheckpoint)
      db script).state = db := by
  obtain ⟨fromHash, fromText, fromScore⟩ := fromScore
  obtain ⟨toHash, toText, toScore⟩ := toScore
  have failing {α : Type} {next : List DeltaRow → DbM α} {sources : Db → List DeltaSource}
      {outcomes : Script} (down : outcomes 0 ≠ .succeeds) :
      (Session.run (selectDeltas sources fromCheckpoint toCheckpoint >>= next) db
        outcomes).state = db := by
    unfold selectDeltas statement
    rw [Session.run_bind]
    rcases Session.run_statement_of_not_succeeds down with failed | killed
    · rw [failed]
      rfl
    · rw [killed]
      rfl
  unfold updateBalancesFromUtxoChanges
  by_cases firstSucceeds : script 0 = .succeeds
  · obtain ⟨created, createdLists, ranCreated⟩ :=
      run_selectDeltas firstSucceeds fromText toText fromScore toScore fits.created
    rw [Session.run_bind_of_done ranCreated]
    by_cases secondSucceeds : script.tail 0 = .succeeds
    · obtain ⟨spent, spentLists, ranSpent⟩ :=
        run_selectDeltas secondSucceeds fromText toText fromScore toScore fits.spent
      rw [Session.run_bind_of_done ranSpent]
      exact state_applyDeltas_of_netDelta_eq_zero hashOrder createdLists spentLists zero _
    · exact failing secondSucceeds
  · exact failing firstSucceeds

/-! ## The update within a save -/

namespace CheckpointLoop

variable (hashOrder : Reordering (String × Int)) {db : Db} {script : Script}

section Executed

variable {previous checkpointHash : String} {lower upper : Int}
  (fromScore : db.CheckpointScore previous lower)
  (toScore : db.CheckpointScore checkpointHash upper) (fits : DeltaFits db lower upper)

include fromScore toScore fits

theorem run_updateBalances_of_up (up : script.Up) :
    ∃ balances rest, rest.Up ∧
      Session.run (updateBalances hashOrder (some previous) checkpointHash) db script =
        .done () { db with balances } rest ∧
      ∀ address, balanceIn balances address =
        db.balanceOf address + netDelta db lower upper address := by
  obtain ⟨balances, rest, restUp, ran, balance⟩ :=
    run_updateBalancesFromUtxoChanges hashOrder fromScore toScore fits up
  refine ⟨balances, rest, restUp, ?_, balance⟩
  simp [updateBalances, Session.run_bind, Session.run_attempt, ran]

theorem untouched_updateBalances (down : script.DownWithin 2) :
    (Session.run (updateBalances hashOrder (some previous) checkpointHash) db
      script).Untouched db := by
  have untouched := untouched_updateBalancesFromUtxoChanges hashOrder fromScore toScore fits down
  exact Session.Untouched.bind (Session.Untouched.attempt untouched)
    fun _ => Session.staysDown_pure ()

theorem state_updateBalances_of_netDelta_eq_zero
    (zero : ∀ address, netDelta db lower upper address = 0) (script : Script) :
    (Session.run (updateBalances hashOrder (some previous) checkpointHash) db
      script).state = db := by
  have unchanged := state_updateBalancesFromUtxoChanges_of_netDelta_eq_zero
    hashOrder fromScore toScore fits zero script
  simp only [updateBalances, Session.run_bind, Session.run_attempt, Session.run_pure]
  cases ran : Session.run (updateBalancesFromUtxoChanges hashOrder previous checkpointHash)
    db script <;> rw [ran] at unchanged <;> exact unchanged

end Executed

end CheckpointLoop

/-! ## Balances in step with the stored checkpoint -/

/-- The tables the interval queries read are the same. -/
structure Db.SameChain (first second : Db) : Prop where
  outputs : first.transactionsOutputs = second.transactionsOutputs
  inputs : first.transactionsInputs = second.transactionsInputs
  acceptances : first.transactionsAcceptances = second.transactionsAcceptances
  blocks : first.blocks = second.blocks

theorem Db.SameChain.netDelta_eq {first second : Db} (same : first.SameChain second) :
    netDelta first = netDelta second :=
  netDelta_congr same.outputs same.inputs same.acceptances same.blocks

theorem Db.SameChain.checkpointScore_iff {first second : Db} (same : first.SameChain second)
    {checkpoint : String} {score : Int} :
    first.CheckpointScore checkpoint score ↔ second.CheckpointScore checkpoint score := by
  simp [Db.CheckpointScore, Db.scoreOf, same.blocks]

theorem Db.CheckpointScore.unique {db : Db} {checkpoint : String} {first second : Int}
    (firstScore : db.CheckpointScore checkpoint first)
    (secondScore : db.CheckpointScore checkpoint second) : first = second := by
  obtain ⟨firstHash, firstText, firstScore⟩ := firstScore
  obtain ⟨secondHash, secondText, secondScore⟩ := secondScore
  rw [Option.some.inj (firstText.symm.trans secondText), secondScore] at firstScore
  exact (Option.some.inj firstScore).symm

/-- Every balance is its value in `start` plus the net delta of the interval from
`initialScore` to the score of the stored checkpoint. -/
def ExactlyOnce (start : Db) (initialScore : Int) (db : Db) : Prop :=
  ∃ checkpoint score, db.persistedCheckpoint = some checkpoint ∧
    start.CheckpointScore checkpoint score ∧
    ∀ address, db.balanceOf address =
      start.balanceOf address + netDelta start initialScore score address

/-- The world in which a run begins: a checkpoint with a score is stored, and a
loop that is alive remembers it. -/
def CheckpointWorld.Started (world : CheckpointWorld) (initialScore : Int) : Prop :=
  ∃ checkpoint, world.db.persistedCheckpoint = some checkpoint ∧
    world.db.CheckpointScore checkpoint initialScore ∧
    ∀ loop, world.loop = some loop → loop.previousCheckpoint = some checkpoint

/-- What carries a run: the queried tables are those of `start`, the loop
remembers the stored checkpoint, and the balances are those of its score. -/
structure Tracks (start : Db) (initialScore : Int) (world : CheckpointWorld)
    (checkpoint : String) (score : Int) : Prop where
  chain : world.db.SameChain start
  persisted : world.db.persistedCheckpoint = some checkpoint
  scored : start.CheckpointScore checkpoint score
  ordered : initialScore ≤ score
  balance : ∀ address, world.db.balanceOf address =
    start.balanceOf address + netDelta start initialScore score address
  remembered : ∀ loop, world.loop = some loop → loop.previousCheckpoint = some checkpoint

/-- Both checkpoints of a save have scores in order and no sum overflows, and of
its statements all are executed, or none after the two queries, or there is no
net change to write. -/
def AtomicSave (db : Db) (previous checkpoint : String) (script : Script) : Prop :=
  ∃ lower upper, db.CheckpointScore previous lower ∧ db.CheckpointScore checkpoint upper ∧
    lower ≤ upper ∧ DeltaFits db lower upper ∧
    (script.Up ∨ script.DownWithin 2 ∨ ∀ address, netDelta db lower upper address = 0)

/-- If the event is an iteration that saves, the save is atomic. -/
def SavesAtomically (cliArgs : CliArgs) (world : CheckpointWorld) : CheckpointEvent → Prop
  | .iteration input _ script =>
      ∀ loop checkpoint force ready previous, world.loop = some loop →
        (loop.receive cliArgs input).evaluate cliArgs input = .save checkpoint force ready →
        ready.previousCheckpoint = some previous →
        AtomicSave world.db previous checkpoint.hash.encode script
  | .restart _ _ => True

section Invariant

variable {start : Db} {initialScore : Int} {cliArgs : CliArgs} {world : CheckpointWorld}
  {hashOrder : Reordering (String × Int)} {checkpoint : String} {score : Int}

theorem Tracks.exactlyOnce (tracks : Tracks start initialScore world checkpoint score) :
    ExactlyOnce start initialScore world.db :=
  ⟨checkpoint, score, tracks.persisted, tracks.scored, tracks.balance⟩

/-- Replacing the loop by one that remembers the same checkpoint. -/
theorem Tracks.withLoop (tracks : Tracks start initialScore world checkpoint score)
    {loop : Option CheckpointLoop}
    (remembered : ∀ running, loop = some running →
      running.previousCheckpoint = some checkpoint) :
    Tracks start initialScore ⟨world.db, loop⟩ checkpoint score :=
  { tracks with remembered }

/-- The stored checkpoint moves on together with the balances. -/
theorem Tracks.advance (tracks : Tracks start initialScore world checkpoint score)
    (balances : Table Balance.primaryKey) {next : String} {nextScore : Int}
    {loop : CheckpointLoop} (nextScored : world.db.CheckpointScore next nextScore)
    (ordered : score ≤ nextScore)
    (balance : ∀ address, balanceIn balances address =
      world.db.balanceOf address + netDelta world.db score nextScore address)
    (remembers : loop.previousCheckpoint = some next) :
    Tracks start initialScore
      ⟨({ world.db with balances } : Db).withCheckpoint next, some loop⟩ next nextScore where
  chain := ⟨tracks.chain.outputs, tracks.chain.inputs, tracks.chain.acceptances,
    tracks.chain.blocks⟩
  persisted := persistedCheckpoint_withCheckpoint _ next
  scored := tracks.chain.checkpointScore_iff.mp nextScored
  ordered := le_trans tracks.ordered ordered
  balance address := by
    change balanceIn balances address = _
    rw [balance, tracks.balance, tracks.chain.netDelta_eq,
      netDelta_add start tracks.ordered ordered, add_assoc]
  remembered := by
    rintro _ ⟨⟩
    exact remembers

/-- An atomic save keeps balances and stored checkpoint in step. -/
theorem Tracks.save (tracks : Tracks start initialScore world checkpoint score)
    {loop : CheckpointLoop} {block : CheckpointBlock} {recordNow : ℕ} {script : Script}
    (remembers : loop.previousCheckpoint = some checkpoint)
    (atomic : AtomicSave world.db checkpoint block.hash.encode script) :
    ∃ nextCheckpoint nextScore, Tracks start initialScore
      (.ofExec (Session.run (loop.save hashOrder block recordNow) world.db script))
      nextCheckpoint nextScore := by
  obtain ⟨lower, upper, fromScore, toScore, ordered, fits, executed⟩ := atomic
  have lowerEq : lower = score :=
    (tracks.chain.checkpointScore_iff.mp fromScore).unique tracks.scored
  subst lower
  have kept : ∀ after, (after = none ∨
      after = some (loop.afterSave loop.previousCheckpoint recordNow)) →
      Tracks start initialScore ⟨world.db, after⟩ checkpoint score := by
    rintro after (rfl | rfl)
    · exact tracks.withLoop fun _ absent => nomatch absent
    · apply tracks.withLoop
      rintro _ ⟨⟩
      exact remembers
  have cases := CheckpointLoop.save_cases hashOrder loop block recordNow world.db script
  rw [remembers] at cases
  rcases executed with up | down | zero
  · obtain ⟨balances, rest, restUp, updated, balance⟩ :=
      CheckpointLoop.run_updateBalances_of_up hashOrder fromScore toScore fits up
    rw [updated] at cases
    rcases cases with ⟨middle, left, equal, _, saved⟩ | ⟨notSaved, _⟩
    · cases equal
      rw [saved]
      exact ⟨_, _, tracks.advance balances toScore ordered balance rfl⟩
    · exact absurd (restUp 0) (notSaved _ _ rfl)
  · have untouched := CheckpointLoop.untouched_updateBalances hashOrder fromScore
      toScore fits down
    rcases cases with ⟨middle, left, updated, succeeds, _⟩ | ⟨_, after, saved, afterEq⟩
    · rw [updated] at untouched
      exact absurd succeeds (untouched.2 0)
    · rw [saved, untouched.state_eq]
      rw [← remembers] at afterEq
      exact ⟨_, _, kept after afterEq⟩
  · have unchanged := CheckpointLoop.state_updateBalances_of_netDelta_eq_zero hashOrder
      fromScore toScore fits zero script
    rcases cases with ⟨middle, left, updated, _, saved⟩ | ⟨_, after, saved, afterEq⟩
    · rw [updated] at unchanged
      change middle = world.db at unchanged
      subst unchanged
      rw [saved]
      refine ⟨_, _, tracks.advance world.db.balances toScore ordered ?_ rfl⟩
      intro address
      rw [zero, add_zero]
      rfl
    · rw [saved, unchanged]
      rw [← remembers] at afterEq
      exact ⟨_, _, kept after afterEq⟩

/-- A restart loads the stored checkpoint and at most writes it again. -/
theorem Tracks.resume (tracks : Tracks start initialScore world checkpoint score) (now : ℕ)
    (script : Script) :
    Tracks start initialScore
      (.ofExec (Session.run (VecnoIndexer.resume now checkpoint) world.db script))
      checkpoint score := by
  have scored : world.db.CheckpointScore checkpoint score :=
    tracks.chain.checkpointScore_iff.mpr tracks.scored
  have fresh : ∀ loop, some (CheckpointLoop.start now (some checkpoint)) = some loop →
      loop.previousCheckpoint = some checkpoint := by
    rintro _ ⟨⟩
    rfl
  simp only [VecnoIndexer.resume, Session.run_bind, Session.run_attempt, Session.run_pure]
  cases outcome : script 0 with
  | succeeds =>
      rw [run_saveCheckpoint_of_succeeds outcome]
      refine tracks.advance world.db.balances scored (le_refl score) ?_ rfl
      intro address
      rw [netDelta_self, add_zero]
      rfl
  | fails =>
      simp only [saveCheckpoint, upsertVar, statement, Session.run_statement, outcome]
      exact tracks.withLoop fresh
  | killed =>
      simp only [saveCheckpoint, upsertVar, statement, Session.run_statement, outcome]
      refine tracks.withLoop ?_
      rintro _ ⟨⟩

/-- The receiving half of an iteration does not touch the remembered checkpoint. -/
@[simp]
theorem CheckpointLoop.receive_previousCheckpoint (loop : CheckpointLoop)
    (input : CheckpointInput) :
    (loop.receive cliArgs input).previousCheckpoint = loop.previousCheckpoint := by
  unfold receive dequeue adopt
  split <;> try rfl
  split <;> (try split) <;> (try split) <;> rfl

/-- Nor does the test of readiness. -/
theorem CheckpointLoop.evaluate_previousCheckpoint {loop : CheckpointLoop}
    {input : CheckpointInput} :
    (∀ block force ready, loop.evaluate cliArgs input = .save block force ready →
      ready.previousCheckpoint = loop.previousCheckpoint) ∧
    (∀ waiting, loop.evaluate cliArgs input = .wait waiting →
      waiting.previousCheckpoint = loop.previousCheckpoint) := by
  unfold evaluate
  split
  · exact ⟨fun _ _ _ equal => (nomatch equal), fun _ equal => nomatch equal⟩
  · simp only
    split_ifs <;> simp_all [checkReadiness]

/-- The step lemma. -/
theorem Tracks.step (tracks : Tracks start initialScore world checkpoint score)
    {event : CheckpointEvent} (atomic : SavesAtomically cliArgs world event) :
    ∃ nextCheckpoint nextScore,
      Tracks start initialScore (world.step cliArgs event) nextCheckpoint nextScore := by
  cases event with
  | restart now script =>
      simp only [CheckpointWorld.step, tracks.persisted]
      exact ⟨_, _, tracks.resume now script⟩
  | iteration input hashOrder script =>
      cases running : world.loop with
      | none =>
          simp only [CheckpointWorld.step, running]
          exact ⟨_, _, tracks⟩
      | some loop =>
          have remembers : (loop.receive cliArgs input).previousCheckpoint = some checkpoint := by
            rw [CheckpointLoop.receive_previousCheckpoint]
            exact tracks.remembered loop running
          simp only [CheckpointWorld.step, running, CheckpointLoop.iterate]
          cases decision : (loop.receive cliArgs input).evaluate cliArgs input with
          | idle =>
              refine ⟨_, _, tracks.withLoop ?_⟩
              rintro _ ⟨⟩
              exact remembers
          | wait waiting =>
              refine ⟨_, _, tracks.withLoop ?_⟩
              rintro _ ⟨⟩
              exact (CheckpointLoop.evaluate_previousCheckpoint.2 _ decision).trans remembers
          | save block force ready =>
              have readyRemembers :=
                (CheckpointLoop.evaluate_previousCheckpoint.1 _ _ _ decision).trans remembers
              exact tracks.save readyRemembers
                (atomic loop block force ready checkpoint running decision readyRemembers)

/-- In every run whose saves are atomic, with any number of deaths and restarts,
every balance is its initial value plus the net delta up to the stored
checkpoint. -/
theorem exactlyOnce_of_run {events : List CheckpointEvent}
    (started : world.Started initialScore)
    (atomic : Along (CheckpointWorld.step cliArgs) (SavesAtomically cliArgs) world events) :
    ExactlyOnce world.db initialScore
      (runFrom (CheckpointWorld.step cliArgs) world events).db := by
  obtain ⟨initial, persisted, scored, remembered⟩ := started
  have tracks : Tracks world.db initialScore world initial initialScore := {
    chain := ⟨rfl, rfl, rfl, rfl⟩
    persisted
    scored
    ordered := le_refl initialScore
    balance := fun address => by rw [netDelta_self, add_zero]
    remembered }
  have preserved : ∀ middle event,
      (∃ checkpoint score, Tracks world.db initialScore middle checkpoint score) →
      SavesAtomically cliArgs middle event →
      ∃ checkpoint score, Tracks world.db initialScore
        (middle.step cliArgs event) checkpoint score := by
    rintro middle event ⟨checkpoint, score, tracks⟩ atomicHere
    exact tracks.step atomicHere
  obtain ⟨checkpoint, score, final⟩ :=
    invariant_of_along preserved ⟨initial, initialScore, tracks⟩ atomic
  exact final.exactlyOnce

end Invariant

/-! ## A save that applies an interval without recording it -/

/-- Block 1 is the stored checkpoint; its child, block 2, accepts transaction 7,
which pays 5 to the address `payee`. -/
def paymentDb : Db :=
  { Db.empty with
    vars := Table.empty.insertAll [⟨varKeyBlockCheckpoint, Hash.encode 1⟩]
    blocks := Table.empty.insertAll [scoredBlock 1 0, scoredBlock 2 1]
    transactionsAcceptances := Table.empty.insertAll [⟨some 7, some 2⟩]
    transactionsOutputs := Table.empty.insertAll
      [⟨7, 0, some 5, none, some "payee", none⟩] }

def paymentWorld : CheckpointWorld where
  db := paymentDb
  loop := some (CheckpointLoop.start 0 (some (Hash.encode 1)))

/-- The first `count` statements are executed, the later ones answered with an
error. -/
def failsAfter (count : ℕ) : Script :=
  fun n => if n < count then .succeeds else .fails

/-- Both queries and the upsert are executed, the save is not. -/
def paymentEvents : List CheckpointEvent :=
  [.iteration (popAtSecond31 .blocks) .listed (failsAfter 0),
    .iteration (popAtSecond31 .vcp) .listed (failsAfter 0),
    .iteration (popAtSecond31 .transactions) .listed (failsAfter 3)]

theorem paymentDb_scores :
    paymentDb.CheckpointScore (Hash.encode 1) 0 ∧ paymentDb.CheckpointScore (Hash.encode 2) 1 :=
  ⟨⟨1, Hash.fromStr_encode 1, by decide⟩, ⟨2, Hash.fromStr_encode 2, by decide⟩⟩

theorem paymentWorld_started : paymentWorld.Started 0 :=
  ⟨Hash.encode 1, by decide, paymentDb_scores.1, by rintro _ ⟨⟩; rfl⟩

def paymentFinal : CheckpointWorld :=
  runFrom (CheckpointWorld.step .standard) paymentWorld paymentEvents

/-- The payment is in the balances while the checkpoint before it is stored. -/
theorem paymentFinal_not_exactlyOnce :
    paymentWorld.Started 0 ∧ ¬ ExactlyOnce paymentWorld.db 0 paymentFinal.db := by
  refine ⟨paymentWorld_started, ?_⟩
  rintro ⟨checkpoint, score, persisted, scored, balance⟩
  have stored : paymentFinal.db.persistedCheckpoint = some (Hash.encode 1) := by decide +kernel
  rw [stored] at persisted
  cases persisted
  have scoreEq : score = 0 := scored.unique paymentDb_scores.1
  subst scoreEq
  have paid : paymentFinal.db.balanceOf "payee" = 5 := by decide +kernel
  have unpaid : paymentWorld.db.balanceOf "payee" = 0 := by decide
  have atPayee := balance "payee"
  rw [paid, unpaid, netDelta_self] at atPayee
  exact absurd atPayee (by decide)

theorem paymentDb_netDelta (address : String) :
    netDelta paymentDb 0 1 address = if "payee" = address then 5 else 0 := by
  have created : createdSources paymentDb = [⟨some "payee", some 5, some 1⟩] := by decide
  have spent : spentSources paymentDb = [] := by decide
  simp [netDelta, created, spent, sumBetween, DeltaSource.contribution, scoreBetween]

theorem paymentDb_fits : DeltaFits paymentDb 0 1 := by
  have created : createdSources paymentDb = [⟨some "payee", some 5, some 1⟩] := by decide
  have spent : spentSources paymentDb = [] := by decide
  have noBalance (address : String) : paymentDb.balanceOf address = 0 := rfl
  constructor <;> intro address
  · by_cases payee : "payee" = address <;>
      simp [created, sumBetween, DeltaSource.contribution, scoreBetween, payee, InI64]
  · by_cases payee : "payee" = address <;>
      simp [created, sumBetween, DeltaSource.contribution, scoreBetween, payee, InI64]
  · simp [spent, sumBetween, InI64]
  · simp [spent, sumBetween, InI64]
  · rw [paymentDb_netDelta]
    split <;> simp [InI64]
  · rw [noBalance, paymentDb_netDelta]
    split <;> simp [InI64]

/-- The same notifications with every statement executed, then a restart. -/
def paidEvents : List CheckpointEvent :=
  [.iteration (popAtSecond31 .blocks) .listed fun _ => .succeeds,
    .iteration (popAtSecond31 .vcp) .listed fun _ => .succeeds,
    .iteration (popAtSecond31 .transactions) .listed fun _ => .succeeds,
    .restart 40000000000 fun _ => .killed]

theorem paidEvents_exactlyOnce :
    ExactlyOnce paymentWorld.db 0
      (runFrom (CheckpointWorld.step .standard) paymentWorld paidEvents).db := by
  refine exactlyOnce_of_run paymentWorld_started ⟨?_, ?_, ?_, trivial, trivial⟩
  · rintro _ checkpoint force ready previous ⟨⟩ ⟨⟩
  · rintro loop checkpoint force ready previous ⟨⟩ ⟨⟩
  · rintro loop checkpoint force ready previous ⟨⟩ ⟨⟩ ⟨⟩
    exact ⟨0, 1, paymentDb_scores.1, paymentDb_scores.2, by decide, paymentDb_fits,
      Or.inl fun _ => rfl⟩

end VecnoIndexer
