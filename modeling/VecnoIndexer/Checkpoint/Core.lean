import VecnoIndexer.Balances.Update
import VecnoIndexer.Checkpoint.Vars
import VecnoIndexer.Cli.CliArgs
import Mathlib.Data.Finset.Insert

/-!
# The checkpoint processor

The loop of `process_checkpoints`.  One iteration dequeues at most one
notification, which may become the candidate, then tests whether the candidate
is ready; a ready candidate has its balance deltas applied and is saved.  All
that decides whether a candidate is saved is pure and is kept apart from the
statements a save issues.

Instants are nanoseconds.  The readings of one iteration are inputs, so every
clock is covered.
-/

namespace VecnoIndexer

open VecnoIndexer.Sql
open VecnoIndexer.Collections

/-- Who pushed a notification. -/
inductive CheckpointOrigin where
  | blocks
  | transactions
  | vcp
  | initial
  deriving DecidableEq, Repr

/-- A notification of the checkpoint queue. -/
structure CheckpointBlock where
  origin : CheckpointOrigin
  hash : Hash
  timestamp : ℕ
  daaScore : ℕ
  blueScore : ℕ
  deriving DecidableEq, Repr

def checkpointSaveInterval : ℕ := 30

def checkpointWarnInterval : ℕ := 30

def maxTimeWithoutSave : ℕ := 120

/-- `now.duration_since(earlier).as_secs()`, zero if the clock went back. -/
def secondsSince (earlier now : ℕ) : ℕ :=
  (now - earlier) / 1000000000

/-- What an iteration of the loop reads: the popped notification, if any, and
the clock where it is consulted. -/
structure CheckpointInput where
  popped : Option CheckpointBlock
  /-- Read when a notification may become the candidate. -/
  adoptNow : ℕ
  /-- Read for the time since the last save. -/
  evaluateNow : ℕ
  /-- Read for the time since the last warning. -/
  warnNow : ℕ
  /-- Read when the time of the save or warning is recorded. -/
  recordNow : ℕ
  deriving DecidableEq, Repr

/-- The local variables of `process_checkpoints`. -/
structure CheckpointLoop where
  checkpointLastSaved : ℕ
  checkpointLastWarned : ℕ
  checkpointCandidate : Option CheckpointBlock
  blocksProcessed : Finset Hash
  txsProcessed : Finset Hash
  cpOkBlocks : Bool
  cpOkTxs : Bool
  previousCheckpoint : Option String
  deriving DecidableEq

namespace CheckpointLoop

/-- The variables before the first iteration. -/
def start (now : ℕ) (previousCheckpoint : Option String) : CheckpointLoop where
  checkpointLastSaved := now
  checkpointLastWarned := now
  checkpointCandidate := none
  blocksProcessed := ∅
  txsProcessed := ∅
  cpOkBlocks := false
  cpOkTxs := false
  previousCheckpoint := previousCheckpoint

/-- A notification becomes the candidate when there is none and the last save is
long enough ago. -/
def Adopts (loop : CheckpointLoop) (now : ℕ) : Prop :=
  loop.checkpointCandidate = none ∧
    checkpointSaveInterval < secondsSince loop.checkpointLastSaved now

instance (loop : CheckpointLoop) (now : ℕ) : Decidable (loop.Adopts now) :=
  inferInstanceAs (Decidable (_ ∧ _))

def adopt (loop : CheckpointLoop) (now : ℕ) (checkpointBlock : CheckpointBlock) :
    CheckpointLoop :=
  if loop.Adopts now then
    { loop with
      checkpointCandidate := some checkpointBlock
      cpOkBlocks := true
      cpOkTxs := false }
  else
    loop

/-- The `match` on the origin of a popped notification. -/
def dequeue (cliArgs : CliArgs) (loop : CheckpointLoop) (now : ℕ)
    (checkpointBlock : CheckpointBlock) : CheckpointLoop :=
  match checkpointBlock.origin with
  | .blocks =>
      if cliArgs.isDisabled .virtualChainProcessing then
        loop.adopt now checkpointBlock
      else
        { loop with blocksProcessed := insert checkpointBlock.hash loop.blocksProcessed }
  | .transactions =>
      { loop with txsProcessed := insert checkpointBlock.hash loop.txsProcessed }
  | .vcp => loop.adopt now checkpointBlock
  | .initial => loop

/-- The first half of an iteration. -/
def receive (cliArgs : CliArgs) (loop : CheckpointLoop) (input : CheckpointInput) :
    CheckpointLoop :=
  match input.popped with
  | some checkpointBlock => loop.dequeue cliArgs input.adoptNow checkpointBlock
  | none => loop

/-- Raise the readiness flags of a candidate and forget what was processed. -/
def checkReadiness (cliArgs : CliArgs) (loop : CheckpointLoop) (hash : Hash) :
    CheckpointLoop :=
  { loop with
    cpOkBlocks := loop.cpOkBlocks || decide (hash ∈ loop.blocksProcessed)
    blocksProcessed := ∅
    cpOkTxs := loop.cpOkTxs || cliArgs.isDisabled .transactionProcessing ||
      decide (hash ∈ loop.txsProcessed)
    txsProcessed := ∅ }

def forceSave (loop : CheckpointLoop) (now : ℕ) : Bool :=
  decide (maxTimeWithoutSave < secondsSince loop.checkpointLastSaved now)

/-- What the second half of an iteration does with the loop it finds. -/
inductive Decision where
  /-- There is no candidate. -/
  | idle
  /-- The candidate is saved, by force or because it is ready. -/
  | save (checkpoint : CheckpointBlock) (force : Bool) (loop : CheckpointLoop)
  /-- The candidate keeps waiting. -/
  | wait (loop : CheckpointLoop)

/-- The second half of an iteration, up to the statements of a save. -/
def evaluate (cliArgs : CliArgs) (loop : CheckpointLoop) (input : CheckpointInput) : Decision :=
  match loop.checkpointCandidate with
  | none => .idle
  | some checkpoint =>
      let checked := loop.checkReadiness cliArgs checkpoint.hash
      if checked.forceSave input.evaluateNow then
        .save checkpoint true { checked with cpOkBlocks := true, cpOkTxs := true }
      else if checked.cpOkBlocks && checked.cpOkTxs then
        .save checkpoint false checked
      else if checkpointWarnInterval < secondsSince checked.checkpointLastWarned input.warnNow then
        .wait { checked with checkpointLastWarned := input.recordNow }
      else
        .wait checked

/-- Apply the balance deltas since the previous checkpoint. An error is logged
only. -/
def updateBalances (hashOrder : Reordering (String × Int)) (previousCheckpoint : Option String)
    (checkpointHash : String) : DbM Unit :=
  match previousCheckpoint with
  | some prevHash => do
      let _logged ←
        (updateBalancesFromUtxoChanges hashOrder prevHash checkpointHash).attempt
      pure ()
  | none => pure ()

/-- The statements of a save, and the loop after it. The candidate is dropped
whether or not the checkpoint was written. -/
def save (hashOrder : Reordering (String × Int)) (loop : CheckpointLoop)
    (checkpoint : CheckpointBlock) (recordNow : ℕ) : DbM CheckpointLoop := do
  let checkpointHash := checkpoint.hash.encode
  updateBalances hashOrder loop.previousCheckpoint checkpointHash
  let saved ← (saveCheckpoint checkpointHash).attempt
  let previousCheckpoint :=
    match saved with
    | .ok _ => some checkpointHash
    | .error _ => loop.previousCheckpoint
  pure { loop with
    previousCheckpoint
    checkpointLastSaved := recordNow
    checkpointCandidate := none }

/-- One iteration of the loop. -/
def iterate (cliArgs : CliArgs) (hashOrder : Reordering (String × Int)) (loop : CheckpointLoop)
    (input : CheckpointInput) : DbM CheckpointLoop :=
  let received := loop.receive cliArgs input
  match received.evaluate cliArgs input with
  | .idle => pure received
  | .save checkpoint _ ready => ready.save hashOrder checkpoint input.recordNow
  | .wait waiting => pure waiting

end CheckpointLoop

/-! ## The processor and its database -/

/-- The database and, while the process is alive, the loop. -/
structure CheckpointWorld where
  db : Db
  loop : Option CheckpointLoop

/-- What happens to the processor. -/
inductive CheckpointEvent where
  /-- An iteration, the order in which it reads its hash maps, and what happens
  to its statements. -/
  | iteration (input : CheckpointInput) (hashOrder : Reordering (String × Int))
      (script : Script)
  /-- The process, alive or not, is replaced by one that loads the checkpoint
  from `vars` and writes it back. -/
  | restart (now : ℕ) (script : Script)

/-- What `start_processing` does with a saved checkpoint it loaded. -/
def resume (now : ℕ) (saved : String) : DbM CheckpointLoop := do
  let _logged ← (saveCheckpoint saved).attempt
  pure (CheckpointLoop.start now (some saved))

/-- The world a session leaves: a process that does not end it is dead. -/
def CheckpointWorld.ofExec : Exec SqlError Db CheckpointLoop → CheckpointWorld
  | .done loop db _ => ⟨db, some loop⟩
  | .failed _ db _ => ⟨db, none⟩
  | .killed db => ⟨db, none⟩

/-- One event. Without a stored checkpoint a restart takes another path of
`start_processing` and no loop is started here. -/
def CheckpointWorld.step (cliArgs : CliArgs) (world : CheckpointWorld) :
    CheckpointEvent → CheckpointWorld
  | .iteration input hashOrder script =>
      match world.loop with
      | some loop => .ofExec (Session.run (loop.iterate cliArgs hashOrder input) world.db script)
      | none => world
  | .restart now script =>
      match world.db.persistedCheckpoint with
      | some saved => .ofExec (Session.run (resume now saved) world.db script)
      | none => ⟨world.db, none⟩

@[simp]
theorem CheckpointWorld.ofExec_db (result : Exec SqlError Db CheckpointLoop) :
    (CheckpointWorld.ofExec result).db = result.state := by
  cases result <;> rfl

/-! ## What a save can do -/

namespace CheckpointLoop

variable (hashOrder : Reordering (String × Int))

/-- The loop after a save. -/
def afterSave (loop : CheckpointLoop) (previousCheckpoint : Option String) (recordNow : ℕ) :
    CheckpointLoop :=
  { loop with
    previousCheckpoint
    checkpointLastSaved := recordNow
    checkpointCandidate := none }

/-- An error of the balance update does not end the session. -/
theorem run_updateBalances_cases (previousCheckpoint : Option String) (checkpointHash : String)
    (db : Db) (script : Script) :
    (∃ middle rest, Session.run (updateBalances hashOrder previousCheckpoint checkpointHash)
      db script = .done () middle rest) ∨
    (∃ middle, Session.run (updateBalances hashOrder previousCheckpoint checkpointHash)
      db script = .killed middle) := by
  cases previousCheckpoint with
  | none => exact Or.inl ⟨db, script, rfl⟩
  | some prevHash =>
      simp only [updateBalances, Session.run_bind, Session.run_attempt, Session.run_pure]
      cases Session.run (updateBalancesFromUtxoChanges hashOrder prevHash checkpointHash)
        db script with
      | done value middle rest => exact Or.inl ⟨middle, rest, rfl⟩
      | failed error middle rest => exact Or.inl ⟨middle, rest, rfl⟩
      | killed middle => exact Or.inr ⟨middle, rfl⟩

/-- A save leaves what the balance update left. Either the checkpoint is written
and remembered, or neither. -/
theorem save_cases (hashOrder : Reordering (String × Int)) (loop : CheckpointLoop)
    (checkpoint : CheckpointBlock) (recordNow : ℕ) (db : Db) (script : Script) :
    (∃ middle rest,
      Session.run (updateBalances hashOrder loop.previousCheckpoint checkpoint.hash.encode)
        db script = .done () middle rest ∧
      rest 0 = .succeeds ∧
      CheckpointWorld.ofExec (Session.run (loop.save hashOrder checkpoint recordNow) db script) =
        ⟨middle.withCheckpoint checkpoint.hash.encode,
          some (loop.afterSave (some checkpoint.hash.encode) recordNow)⟩) ∨
    ((∀ middle rest,
      Session.run (updateBalances hashOrder loop.previousCheckpoint checkpoint.hash.encode)
        db script = .done () middle rest → rest 0 ≠ .succeeds) ∧
      ∃ after,
        CheckpointWorld.ofExec
            (Session.run (loop.save hashOrder checkpoint recordNow) db script) =
          ⟨(Session.run (updateBalances hashOrder loop.previousCheckpoint
            checkpoint.hash.encode) db script).state, after⟩ ∧
        (after = none ∨ after = some (loop.afterSave loop.previousCheckpoint recordNow))) := by
  rcases run_updateBalances_cases hashOrder loop.previousCheckpoint checkpoint.hash.encode db
    script with ⟨middle, rest, updated⟩ | ⟨middle, updated⟩
  · have saved : Session.run (loop.save hashOrder checkpoint recordNow) db script =
        Session.run (do
          let saved ← (saveCheckpoint checkpoint.hash.encode).attempt
          let previousCheckpoint :=
            match saved with
            | .ok _ => some checkpoint.hash.encode
            | .error _ => loop.previousCheckpoint
          pure (loop.afterSave previousCheckpoint recordNow)) middle rest :=
      Session.run_bind_of_done updated
    rw [saved, updated]
    cases outcome : rest 0 with
    | succeeds =>
        refine Or.inl ⟨middle, rest, rfl, outcome, ?_⟩
        rw [Session.run_bind, Session.run_attempt, run_saveCheckpoint_of_succeeds outcome]
        rfl
    | fails =>
        refine Or.inr ⟨?_, some (loop.afterSave loop.previousCheckpoint recordNow), ?_, Or.inr rfl⟩
        · rintro _ _ ⟨⟩
          simp [outcome]
        · simp [saveCheckpoint, upsertVar, statement, Session.run_bind, Session.run_attempt,
            Session.run_statement, outcome, CheckpointWorld.ofExec, Exec.state]
    | killed =>
        refine Or.inr ⟨?_, none, ?_, Or.inl rfl⟩
        · rintro _ _ ⟨⟩
          simp [outcome]
        · simp [saveCheckpoint, upsertVar, statement, Session.run_bind, Session.run_attempt,
            Session.run_statement, outcome, CheckpointWorld.ofExec, Exec.state]
  · refine Or.inr ⟨?_, none, ?_, Or.inl rfl⟩
    · rw [updated]
      intro _ _ equal
      contradiction
    · simp [save, Session.run_bind, updated, CheckpointWorld.ofExec, Exec.state]

/-- A loop that survives its save has dropped the candidate. -/
theorem loop_ofExec_save {hashOrder : Reordering (String × Int)} {loop after : CheckpointLoop}
    {checkpoint : CheckpointBlock} {recordNow : ℕ} {db : Db} {script : Script}
    (survives : (CheckpointWorld.ofExec
      (Session.run (loop.save hashOrder checkpoint recordNow) db script)).loop = some after) :
    ∃ previousCheckpoint, after = loop.afterSave previousCheckpoint recordNow := by
  rcases save_cases hashOrder loop checkpoint recordNow db script with
    ⟨middle, rest, _, _, saved⟩ | ⟨_, result, saved, rfl | rfl⟩
  · rw [saved] at survives
    exact ⟨_, (Option.some.inj survives).symm⟩
  · rw [saved] at survives
    contradiction
  · rw [saved] at survives
    exact ⟨_, (Option.some.inj survives).symm⟩

end CheckpointLoop

end VecnoIndexer
