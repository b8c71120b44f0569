import VecnoIndexer.Balances.Correctness
import VecnoIndexer.Blocks.Table
import VecnoIndexer.Checkpoint.Safety

/-!
# Intervals of balance updates

An update between two checkpoints selects nothing, and succeeds, when the row or the score of one
of them is missing.  Whether the rows are there is settled by the statements of the other
components: a block is there once the block processor has inserted it, for as long as no cutoff of
the pruner has passed it.  An update that begins after the inserts of both its checkpoints, with
scores stored, applies all that was created and spent between them.
-/

namespace VecnoIndexer

open VecnoIndexer.Sql
open VecnoIndexer.Collections
open VecnoIndexer.Transition

/-! ## The rows of the checkpoints -/

theorem scoreOf_eq_some_iff {db : Db} {hash : Hash} {score : Int} :
    db.scoreOf hash = some score ↔
      ∃ row ∈ db.blocks, row.hash = hash ∧ row.blueScore = some score := by
  unfold Db.scoreOf
  rw [Option.bind_eq_some_iff]
  constructor
  · rintro ⟨row, found, scored⟩
    obtain ⟨rowMem, rowKey⟩ := Table.lookup_eq_some_iff.mp found
    exact ⟨row, rowMem, Option.some.inj rowKey, scored⟩
  · rintro ⟨row, rowMem, rowHash, scored⟩
    exact ⟨row, Table.lookup_eq_some_iff.mpr ⟨rowMem, congrArg some rowHash⟩, scored⟩

/-- The timestamps of the blocks are `timestamp`, as they are stored. -/
def Timed (timestamp : Hash → Option Int) (rows : List Block) : Prop :=
  ∀ row ∈ rows, row.timestamp = timestamp row.hash

namespace BlocksSettings

variable (settings : BlocksSettings) (timestamp : Hash → Option Int)

/-- The cutoff of a `DELETE` is not past the block. -/
def Spares (start : Int) (hash : Hash) : Prop :=
  ∀ cutoff, settings.blocksCutoff start = some cutoff →
    ∀ time, timestamp hash = some time → cutoff ≤ time

/-- The block was stored at first or was inserted, and no cutoff has been past it since. The
statements are listed newest first. -/
def Available (first : Db) : List BlocksChange → Hash → Prop
  | [], hash => first.blocks.HasKey hash
  | .insert blocks :: earlier, hash =>
      Available first earlier hash ∨ ∃ row ∈ settings.blockRows blocks, row.hash = hash
  | .prune start _ :: earlier, hash =>
      Available first earlier hash ∧ settings.Spares timestamp start hash
  | .other _ :: earlier, hash => Available first earlier hash

variable {settings timestamp}

/-- A row stays unless a `DELETE` is past its block. -/
theorem mem_change {db : Db} {change : BlocksChange} {row : Block} (rowMem : row ∈ db.blocks)
    (timed : row.timestamp = timestamp row.hash)
    (spared : ∀ start choice, change = .prune start choice →
      settings.Spares timestamp start row.hash) :
    row ∈ (settings.change db change).blocks := by
  cases change with
  | insert blocks => exact Table.mem_insertAll_of_mem rowMem
  | other change => exact rowMem
  | prune start choice =>
      refine settings.mem_change_prune rowMem fun cutoff cutoffEq => not_expiredAt ?_
      intro time timeEq
      exact spared start choice rfl cutoff cutoffEq time (timed.symm.trans timeEq)

/-- No row comes but from an insert. -/
theorem mem_or_exists_of_mem_change {db : Db} {change : BlocksChange} {row : Block}
    (left : row ∈ (settings.change db change).blocks) :
    row ∈ db.blocks ∨ ∃ blocks, change = .insert blocks ∧ row ∈ settings.blockRows blocks := by
  cases change with
  | insert blocks =>
      rcases Table.mem_or_mem_of_mem_insertAll left with old | given
      · exact Or.inl old
      · exact Or.inr ⟨blocks, rfl, given⟩
  | other change => exact Or.inl left
  | prune start choice => exact Or.inl (settings.mem_of_mem_change_prune left)

/-- A row of a statement of the block processor has a blue score unless scores are excluded. -/
theorem blueScore_blockRows (included : settings.cliArgs.isExcluded .blockBlueScore = false)
    {blocks : List RpcBlock} {row : Block} (rowMem : row ∈ settings.blockRows blocks) :
    row.blueScore ≠ none := by
  unfold BlocksSettings.blockRows at rowMem
  split at rowMem
  · exact absurd rowMem List.not_mem_nil
  · obtain ⟨block, _, mapped⟩ := List.mem_filterMap.mp rowMem
    rw [VecnoDbMapper.mapBlock_blueScore _ mapped, VecnoDbMapper.new, included]
    exact Option.some_ne_none _

end BlocksSettings

/-! ## Runs -/

/-- The world, and the statements on `blocks` so far, newest first. -/
structure IntervalWorld where
  world : BlocksWorld
  changes : List BlocksChange

namespace IntervalWorld

/-- The beginning of a run. -/
def start (world : BlocksWorld) : IntervalWorld :=
  ⟨world, []⟩

def step (settings : BlocksSettings) (watched : IntervalWorld) (event : BlocksEvent) :
    IntervalWorld where
  world := watched.world.step settings event
  changes :=
    match event with
    | .change change => change :: watched.changes
    | .start _ _ | .finish _ _ _ | .restart _ _ => watched.changes

end IntervalWorld

/-- The step ends an update without an error, and the checkpoint moves on. -/
def AdvancesAfter (settings : BlocksSettings) (watched : IntervalWorld) (event : BlocksEvent)
    (pending : PendingUpdate) : Prop :=
  watched.world.task = some (.updating pending) ∧
    (∃ hashOrder recordNow script middle rest, event = .finish hashOrder recordNow script ∧
      Session.run (pending.finishUpdate hashOrder) watched.world.db script =
        .done () middle rest) ∧
    (watched.world.step settings event).previousCheckpoint =
      some pending.checkpoint.hash.encode

/-- Both checkpoints have their scores, between which an interval lies. -/
structure PendingUpdate.Scored (pending : PendingUpdate) (db : Db) (lower upper : Int) : Prop where
  previous : db.CheckpointScore pending.previous lower
  checkpoint : db.CheckpointScore pending.checkpoint.hash.encode upper

/-- Both reads of the update find the rows and the scores of both checkpoints, and the step adds to
every balance what was created and spent in the interval between them. -/
def AppliesInterval (settings : BlocksSettings) (watched : IntervalWorld) (event : BlocksEvent)
    (pending : PendingUpdate) : Prop :=
  ∃ lower upper, pending.Scored pending.first lower upper ∧
    pending.Scored watched.world.db lower upper ∧
    ∀ address, (watched.world.step settings event).db.balanceOf address =
      watched.world.db.balanceOf address +
        (sumBetween (createdSources pending.first) lower upper address -
          sumBetween (spentSources watched.world.db) lower upper address)

/-- The inserts give the blocks their timestamps. -/
def TimedInsert (settings : BlocksSettings) (timestamp : Hash → Option Int) : BlocksEvent → Prop
  | .change (.insert blocks) => Timed timestamp (settings.blockRows blocks)
  | .change (.prune _ _) | .change (.other _) | .start _ _ | .finish _ _ _ | .restart _ _ => True

/-- An update begins after the inserts of both of its checkpoints and before any cutoff is past
them, and none is until its second read. -/
def CommitsFirst (settings : BlocksSettings) (timestamp : Hash → Option Int) (first : Db)
    (watched : IntervalWorld) : BlocksEvent → Prop
  | .change (.prune start _) =>
      ∀ pending, watched.world.task = some (.updating pending) →
        settings.Spares timestamp start pending.checkpoint.hash ∧
        ∀ hash, Hash.fromStr pending.previous = some hash → settings.Spares timestamp start hash
  | .start input _ =>
      ∀ loop checkpoint force ready previous, watched.world.task = some (.looping loop) →
        (loop.receive settings.cliArgs input).evaluate settings.cliArgs input =
          .save checkpoint force ready →
        ready.previousCheckpoint = some previous →
        settings.Available timestamp first watched.changes checkpoint.hash ∧
        ∀ hash, Hash.fromStr previous = some hash →
          settings.Available timestamp first watched.changes hash
  | .change (.insert _) | .change (.other _) | .finish _ _ _ | .restart _ _ => True

/-! ## What the reads find -/

/-- The first read found the scores of both checkpoints, which are there still, and what was
created between them. -/
def PendingUpdate.HasRead (pending : PendingUpdate) (db : Db) : Prop :=
  ∃ lower upper, pending.Scored pending.first lower upper ∧ pending.Scored db lower upper ∧
    Lists pending.created (sumBetween (createdSources pending.first) lower upper)

/-- The rows have scores and the timestamps of their blocks, those available are there, and an
update that runs has read them. -/
structure IntervalWorld.Kept (settings : BlocksSettings) (timestamp : Hash → Option Int)
    (first : Db) (watched : IntervalWorld) : Prop where
  scored : ∀ row ∈ watched.world.db.blocks, row.blueScore ≠ none
  timed : Timed timestamp watched.world.db.blocks.rows
  stored : ∀ hash, settings.Available timestamp first watched.changes hash →
    ∃ row ∈ watched.world.db.blocks, row.hash = hash
  read : ∀ pending, watched.world.task = some (.updating pending) →
    pending.HasRead watched.world.db

/-- An iteration that comes to a read has decided to save, and has read what was created. -/
theorem done_beginIterate {cliArgs : CliArgs} {loop : CheckpointLoop}
    {input : CheckpointInput} {first db after : Db} {script rest : Script}
    {pending : PendingUpdate}
    (ran : Session.run (loop.beginIterate cliArgs input first) db script =
      .done (.inr pending) after rest) :
    pending.first = first ∧
      (∃ force, (loop.receive cliArgs input).evaluate cliArgs input =
        .save pending.checkpoint force pending.ready) ∧
      pending.ready.previousCheckpoint = some pending.previous ∧
      ∃ left, Session.run (selectDeltas createdSources pending.previous
        pending.checkpoint.hash.encode) db script = .done pending.created after left := by
  cases decided : (loop.receive cliArgs input).evaluate cliArgs input with
  | idle =>
      simp only [CheckpointLoop.beginIterate, decided] at ran
      cases ran
  | wait waiting =>
      simp only [CheckpointLoop.beginIterate, decided] at ran
      cases ran
  | save checkpoint force ready =>
      simp only [CheckpointLoop.beginIterate, decided] at ran
      cases previousEq : ready.previousCheckpoint with
      | none =>
          rw [previousEq] at ran
          obtain ⟨_, _, _, _, ran⟩ := Session.done_of_run_bind ran
          cases ran
      | some previous =>
          rw [previousEq] at ran
          obtain ⟨created, _, left, read, ran⟩ := Session.done_of_run_bind ran
          cases created with
          | ok created =>
              cases ran
              refine ⟨rfl, ⟨force, rfl⟩, previousEq, rest, ?_⟩
              exact Session.done_of_run_attempt read
          | error _ =>
              obtain ⟨_, _, _, _, ran⟩ := Session.done_of_run_bind ran
              cases ran

section Run

variable {settings : BlocksSettings} {timestamp : Hash → Option Int} {first : Db}
  {watched : IntervalWorld}

/-- The task after a session is that of its value. -/
theorem exists_of_ofExec_task {α : Type} {next : α → CheckpointTask}
    {result : Exec SqlError Db α} {task : CheckpointTask}
    (running : (BlocksWorld.ofExec next result).task = some task) :
    ∃ value db rest, result = .done value db rest ∧ next value = task := by
  cases result with
  | done value db rest => exact ⟨value, db, rest, rfl, Option.some.inj running⟩
  | failed _ _ _ => cases running
  | killed _ => cases running

/-- A checkpoint with a score keeps it while no `DELETE` is past its block. -/
theorem checkpointScore_change {db : Db} {checkpoint : String} {score : Int}
    {change : BlocksChange} (timed : Timed timestamp db.blocks.rows)
    (scored : db.CheckpointScore checkpoint score)
    (spared : ∀ start choice, change = .prune start choice → ∀ hash,
      Hash.fromStr checkpoint = some hash → settings.Spares timestamp start hash) :
    (settings.change db change).CheckpointScore checkpoint score := by
  obtain ⟨hash, parsed, isScore⟩ := scored
  obtain ⟨row, rowMem, rfl, rowScore⟩ := scoreOf_eq_some_iff.mp isScore
  refine ⟨row.hash, parsed, scoreOf_eq_some_iff.mpr ⟨row, ?_, rfl, rowScore⟩⟩
  exact BlocksSettings.mem_change rowMem (timed row rowMem) fun start choice isPrune =>
    spared start choice isPrune row.hash parsed

/-- A statement of another component. -/
theorem IntervalWorld.Kept.change
    (included : settings.cliArgs.isExcluded .blockBlueScore = false)
    (kept : watched.Kept settings timestamp first) {change : BlocksChange}
    (timedInsert : TimedInsert settings timestamp (.change change))
    (commits : CommitsFirst settings timestamp first watched (.change change)) :
    (watched.step settings (.change change)).Kept settings timestamp first where
  scored row left := by
    rcases BlocksSettings.mem_or_exists_of_mem_change left with old | ⟨blocks, _, given⟩
    · exact kept.scored row old
    · exact BlocksSettings.blueScore_blockRows included given
  timed row left := by
    rcases BlocksSettings.mem_or_exists_of_mem_change left with old | ⟨blocks, rfl, given⟩
    · exact kept.timed row old
    · exact timedInsert row given
  stored hash available := by
    have stays (before : settings.Available timestamp first watched.changes hash)
        (spared : ∀ start choice, change = .prune start choice →
          settings.Spares timestamp start hash) :
        ∃ row ∈ (settings.change watched.world.db change).blocks, row.hash = hash := by
      obtain ⟨row, rowMem, rfl⟩ := kept.stored hash before
      exact ⟨row, BlocksSettings.mem_change rowMem (kept.timed row rowMem) spared, rfl⟩
    cases change with
    | insert blocks =>
        rcases available with before | ⟨row, given, rowHash⟩
        · exact stays before (by rintro _ _ ⟨⟩)
        · obtain ⟨other, otherMem, otherKey⟩ :
              (settings.change watched.world.db (.insert blocks)).blocks.HasKey hash :=
            Table.hasKey_insertAll.mpr (Or.inr ⟨row, given, congrArg some rowHash⟩)
          exact ⟨other, otherMem, Option.some.inj otherKey⟩
    | prune start choice =>
        refine stays available.1 ?_
        rintro _ _ ⟨⟩
        exact available.2
    | other change => exact stays available (by rintro _ _ ⟨⟩)
  read pending updating := by
    obtain ⟨lower, upper, atFirst, now, lists⟩ := kept.read pending updating
    refine ⟨lower, upper, atFirst, ⟨?_, ?_⟩, lists⟩
    · refine checkpointScore_change kept.timed now.previous ?_
      rintro start choice rfl hash parsed
      exact (commits pending updating).2 hash parsed
    · refine checkpointScore_change kept.timed now.checkpoint ?_
      rintro start choice rfl hash parsed
      cases (Hash.fromStr_encode _).symm.trans parsed
      exact (commits pending updating).1

/-- A first read finds the checkpoints that are available. -/
theorem IntervalWorld.Kept.hasRead (kept : watched.Kept settings timestamp first)
    {loop : CheckpointLoop} {input : CheckpointInput} {script rest : Script}
    {pending : PendingUpdate} {after : Db}
    (looping : watched.world.task = some (.looping loop))
    (commits : CommitsFirst settings timestamp first watched (.start input script))
    (ran : Session.run (loop.beginIterate settings.cliArgs input watched.world.db)
      watched.world.db script = .done (.inr pending) after rest) :
    pending.HasRead after := by
  obtain ⟨isFirst, ⟨force, decided⟩, previous, left, read⟩ := done_beginIterate ran
  obtain ⟨checkpointStored, previousStored⟩ :=
    commits loop pending.checkpoint force pending.ready pending.previous looping decided previous
  obtain ⟨fromHash, parsed⟩ : ∃ fromHash, Hash.fromStr pending.previous = some fromHash := by
    have executed := Session.executed_of_run_statement read
    cases parsed : Hash.fromStr pending.previous with
    | none =>
        simp only [parsed] at executed
        contradiction
    | some fromHash => exact ⟨fromHash, rfl⟩
  have score {hash : Hash} (available : settings.Available timestamp first watched.changes hash) :
      ∃ score, watched.world.db.scoreOf hash = some score := by
    obtain ⟨row, rowMem, rowHash⟩ := kept.stored hash available
    obtain ⟨score, rowScore⟩ := Option.ne_none_iff_exists'.mp (kept.scored row rowMem)
    exact ⟨score, scoreOf_eq_some_iff.mpr ⟨row, rowMem, rowHash, rowScore⟩⟩
  obtain ⟨lower, fromScore⟩ := score (previousStored fromHash parsed)
  obtain ⟨upper, toScore⟩ := score checkpointStored
  have toText := Hash.fromStr_encode pending.checkpoint.hash
  obtain ⟨lists, rfl⟩ := lists_of_done parsed toText fromScore toScore read
  have scored : pending.Scored watched.world.db lower upper :=
    ⟨⟨fromHash, parsed, fromScore⟩, ⟨_, toText, toScore⟩⟩
  refine ⟨lower, upper, isFirst ▸ scored, scored, ?_⟩
  rw [isFirst]
  exact lists

/-- After a step of the checkpoint processor an update is under way if it was before, or if the
step has begun it. -/
theorem updating_cases {world : BlocksWorld} {event : BlocksEvent}
    (noChange : ∀ change, event ≠ .change change) {pending : PendingUpdate}
    (updating : (world.step settings event).task = some (.updating pending)) :
    (world.task = some (.updating pending) ∧ (world.step settings event).db = world.db) ∨
      ∃ input script loop rest, event = .start input script ∧
        world.task = some (.looping loop) ∧
        Session.run (loop.beginIterate settings.cliArgs input world.db) world.db script =
          .done (.inr pending) (world.step settings event).db rest := by
  cases event with
  | change change => exact absurd rfl (noChange change)
  | start input script =>
      rcases running : world.task with _ | ⟨loop⟩ | ⟨earlier⟩
      · simp only [BlocksWorld.step, running] at updating
        contradiction
      · right
        simp only [BlocksWorld.step, running] at updating ⊢
        obtain ⟨half, db, rest, ran, isPending⟩ := exists_of_ofExec_task updating
        rcases half with loop | half
        · contradiction
        · cases isPending
          rw [ran]
          exact ⟨input, script, loop, rest, rfl, rfl, ran⟩
      · left
        simp only [BlocksWorld.step, running] at updating ⊢
        exact ⟨updating, trivial⟩
  | finish hashOrder recordNow script =>
      rcases running : world.task with _ | ⟨loop⟩ | ⟨earlier⟩
      · simp only [BlocksWorld.step, running] at updating
        contradiction
      · simp only [BlocksWorld.step, running] at updating
        cases updating
      · simp only [BlocksWorld.step, running] at updating
        obtain ⟨_, _, _, _, isLooping⟩ := exists_of_ofExec_task updating
        contradiction
  | restart now script =>
      cases persisted : world.db.persistedCheckpoint with
      | none =>
          simp only [BlocksWorld.step, persisted] at updating
          contradiction
      | some saved =>
          simp only [BlocksWorld.step, persisted] at updating
          obtain ⟨_, _, _, _, isLooping⟩ := exists_of_ofExec_task updating
          contradiction

/-- The step lemma. -/
theorem IntervalWorld.Kept.step
    (included : settings.cliArgs.isExcluded .blockBlueScore = false)
    (kept : watched.Kept settings timestamp first) {event : BlocksEvent}
    (timedInsert : TimedInsert settings timestamp event)
    (commits : CommitsFirst settings timestamp first watched event) :
    (watched.step settings event).Kept settings timestamp first := by
  by_cases isChange : ∃ change, event = .change change
  · obtain ⟨change, rfl⟩ := isChange
    exact kept.change included timedInsert commits
  · -- A step of the checkpoint processor leaves the table as it was.
    have noChange : ∀ change, event ≠ .change change := not_exists.mp isChange
    have same := BlocksWorld.blocks_step settings watched.world noChange
    have changes : (watched.step settings event).changes = watched.changes := by
      cases event with
      | change change => exact absurd rfl (noChange change)
      | _ => rfl
    constructor
    · exact fun row stored => kept.scored row (same ▸ stored)
    · exact fun row stored => kept.timed row (same ▸ stored)
    · intro hash available
      rw [changes] at available
      obtain ⟨row, stored, rowHash⟩ := kept.stored hash available
      exact ⟨row, same.symm ▸ stored, rowHash⟩
    · intro pending updating
      rcases updating_cases noChange updating with
        ⟨before, sameDb⟩ | ⟨input, script, loop, rest, rfl, running, ran⟩
      · exact sameDb.symm ▸ kept.read pending before
      · exact kept.hasRead running commits ran

/-- What an update has read it applies. -/
theorem IntervalWorld.Kept.appliesInterval (kept : watched.Kept settings timestamp first)
    {event : BlocksEvent} {pending : PendingUpdate}
    (advances : AdvancesAfter settings watched event pending) :
    AppliesInterval settings watched event pending := by
  obtain ⟨updating, ⟨hashOrder, recordNow, script, middle, rest, rfl, ran⟩, _⟩ := advances
  obtain ⟨lower, upper, atFirst, now, createdLists⟩ := kept.read pending updating
  refine ⟨lower, upper, atFirst, now, fun address => ?_⟩
  obtain ⟨fromHash, fromText, fromScore⟩ := now.previous
  obtain ⟨toHash, toText, toScore⟩ := now.checkpoint
  have whole : (watched.world.step settings (.finish hashOrder recordNow script)).db.balances =
      middle.balances := by
    have ended : Session.run (pending.finishUpdate hashOrder).attempt watched.world.db script =
        .done (.ok ()) middle rest := by rw [Session.run_attempt, ran]
    have saves : (pending.ready.finishSave pending.checkpoint recordNow).Keeps
        fun db => db.balances = middle.balances := by
      refine Session.Keeps.bind (Session.Keeps.attempt ?_) fun _ => Session.keeps_pure _ _
      unfold saveCheckpoint upsertVar
      apply Session.keeps_statement
      rintro db _ _ same ⟨⟩
      exact same
    simp only [BlocksWorld.step, updating, BlocksWorld.ofExec_db]
    rw [PendingUpdate.finishIterate, Session.run_bind_of_done ended]
    exact saves middle rest rfl
  obtain ⟨spent, _, _, read, applied⟩ := Session.done_of_run_bind ran
  obtain ⟨spentLists, rfl⟩ := lists_of_done fromText toText fromScore toScore read
  obtain ⟨balances, rfl, balance⟩ := applied_of_done hashOrder createdLists spentLists applied
  rw [Db.balanceOf, whole]
  exact balance address

end Run

/-- In every run that does not begin in the middle of an update, with the scores stored, an update
after which the checkpoint moves on applies its interval, if it begins after the inserts of both of
its checkpoints, and no cutoff is past them by its second read. -/
theorem appliesInterval_of_run {settings : BlocksSettings} {timestamp : Hash → Option Int}
    {world : BlocksWorld} (included : settings.cliArgs.isExcluded .blockBlueScore = false)
    (scored : ∀ row ∈ world.db.blocks, row.blueScore ≠ none)
    (timed : Timed timestamp world.db.blocks.rows)
    (idle : ∀ pending, world.task ≠ some (.updating pending)) {events : List BlocksEvent}
    (timedInserts : ∀ event ∈ events, TimedInsert settings timestamp event)
    (commits : Along (IntervalWorld.step settings)
      (CommitsFirst settings timestamp world.db) (IntervalWorld.start world) events) :
    Along (IntervalWorld.step settings)
      (fun watched event => ∀ pending, AdvancesAfter settings watched event pending →
        AppliesInterval settings watched event pending)
      (IntervalWorld.start world) events := by
  have initial : (IntervalWorld.start world).Kept settings timestamp world.db := by
    refine ⟨scored, timed, ?_, fun pending updating => absurd updating (idle pending)⟩
    rintro hash ⟨row, rowMem, rowKey⟩
    exact ⟨row, rowMem, Option.some.inj rowKey⟩
  refine Along.of_invariant ?_ initial ((along_of_forall _ timedInserts).and commits)
  rintro watched event kept ⟨timedInsert, commitsFirst⟩
  exact ⟨fun pending advances => kept.appliesInterval advances,
    kept.step included timedInsert commitsFirst⟩

/-! ## A checkpoint whose block is not committed yet -/

/-- Blocks are retained for a second. -/
def standardSettings : BlocksSettings where
  earliest := 0
  cliArgs := .standard
  config := ⟨none, 10, none, none, none, some 1000000000, none, none⟩

/-- Checkpoint 1 is stored with its score, and remembered. Block 2 accepts a payment. -/
def firstIntervalWorld : BlocksWorld where
  db := { Db.empty with
    blocks := Table.empty.insertAll [scoredBlock 1 0]
    transactionsAcceptances := Table.empty.insertAll [⟨some 7, some 2⟩]
    transactionsOutputs := Table.empty.insertAll [⟨7, 0, some 5, none, some "payee", some 0⟩] }
  task := some (.looping (.start 0 (some (Hash.encode 1))))

/-- The virtual chain processor and the transaction processor notify block 2, and it is saved. -/
def saveTwo : List BlocksEvent :=
  [.start (popAtSecond31 .vcp) fun _ => .succeeds,
    .start (popAtSecond31 .transactions) fun _ => .succeeds]

def finishTwo : BlocksEvent :=
  .finish .listed 31000000000 fun _ => .succeeds

/-- The save of block 2 up to its second read, after some other steps. -/
def beforeFinish (earlier : List BlocksEvent) : IntervalWorld :=
  runFrom (IntervalWorld.step standardSettings) (IntervalWorld.start firstIntervalWorld)
    (earlier ++ saveTwo)

/-- An update from checkpoint 1 to 2 runs, its end succeeds and checkpoint 2 is remembered. -/
def advancesToTwo (watched : IntervalWorld) : Bool :=
  match watched.world.task with
  | some (.updating pending) =>
      pending.previous = Hash.encode 1 && pending.checkpoint.hash = 2 &&
        (match Session.run (pending.finishUpdate .listed) watched.world.db
            fun _ => .succeeds with
          | .done _ _ _ => true
          | _ => false) &&
        (watched.world.step standardSettings finishTwo).previousCheckpoint = some (Hash.encode 2)
  | _ => false

theorem exists_of_advancesToTwo {watched : IntervalWorld}
    (advances : advancesToTwo watched = true) :
    ∃ pending, AdvancesAfter standardSettings watched finishTwo pending ∧
      pending.previous = Hash.encode 1 ∧ pending.checkpoint.hash = 2 := by
  unfold advancesToTwo at advances
  split at advances
  · rename_i pending running
    simp only [Bool.and_eq_true, decide_eq_true_eq] at advances
    obtain ⟨⟨⟨previous, two⟩, ended⟩, moved⟩ := advances
    split at ended
    · rename_i middle rest ran
      exact ⟨pending, ⟨running, ⟨_, _, _, middle, rest, rfl, ran⟩, two ▸ moved⟩, previous, two⟩
    · contradiction
  · contradiction

/-- Before block 2 is committed, the update succeeds and applies nothing of the interval. -/
theorem uncommitted_not_applied :
    ¬ Along (IntervalWorld.step standardSettings)
        (fun watched event => ∀ pending, AdvancesAfter standardSettings watched event pending →
          AppliesInterval standardSettings watched event pending)
        (IntervalWorld.start firstIntervalWorld) (saveTwo ++ [finishTwo]) := by
  intro along
  obtain ⟨pending, advances, _, two⟩ :=
    @exists_of_advancesToTwo (beforeFinish []) (by decide +kernel)
  obtain ⟨_, upper, _, ⟨_, toHash, toEq, toScore⟩, _⟩ :=
    (along_append.mp along).2.1 _ advances
  rw [two, Hash.fromStr_encode] at toEq
  cases toEq
  have missing : (beforeFinish []).world.db.scoreOf 2 = none := by decide +kernel
  cases missing.symm.trans toScore

/-- Block 2 is committed, and the pruner runs before its cutoff is past it. -/
def commitTwo : List BlocksEvent :=
  [.change (.insert [plainBlock 2 0 1]), .change (.prune 1 .first)]

/-- The timestamps of the two blocks, of which the first has none stored. -/
def timestampOfTwo (hash : Hash) : Option Int :=
  if hash = 1 then none else some 0

/-- A save that is decided on is that of block 2 after block 1. -/
def savesTwo (watched : IntervalWorld) (input : CheckpointInput) : Bool :=
  match watched.world.task with
  | some (.looping loop) =>
      match (loop.receive .standard input).evaluate .standard input with
      | .save checkpoint _ ready =>
          checkpoint.hash = 2 && ready.previousCheckpoint = some (Hash.encode 1)
      | .idle | .wait _ => true
  | _ => true

theorem eq_of_savesTwo {watched : IntervalWorld} {input : CheckpointInput}
    (saves : savesTwo watched input = true) {loop : CheckpointLoop} {checkpoint : CheckpointBlock}
    {force : Bool} {ready : CheckpointLoop} (looping : watched.world.task = some (.looping loop))
    (decided : (loop.receive .standard input).evaluate .standard input =
      .save checkpoint force ready) :
    checkpoint.hash = 2 ∧ ready.previousCheckpoint = some (Hash.encode 1) := by
  simpa [savesTwo, looping, decided] using saves

theorem spares_one (hash : Hash) : standardSettings.Spares timestampOfTwo 1 hash := by
  intro cutoff cutoffEq time timeEq
  have zero : standardSettings.blocksCutoff 1 = some 0 := by decide
  cases zero.symm.trans cutoffEq
  unfold timestampOfTwo at timeEq
  split at timeEq
  · contradiction
  · exact le_of_eq (Option.some.inj timeEq)

/-- Both checkpoints are available once block 2 is committed. -/
theorem available_of_commitTwo {hash : Hash} (isEither : hash = 1 ∨ hash = 2) :
    standardSettings.Available timestampOfTwo firstIntervalWorld.db
      [.prune 1 .first, .insert [plainBlock 2 0 1]] hash := by
  refine ⟨?_, spares_one hash⟩
  rcases isEither with rfl | rfl
  · exact Or.inl (Table.hasKey_insertAll.mpr (Or.inr ⟨_, List.mem_singleton_self _, rfl⟩))
  · have rows : (standardSettings.blockRows [plainBlock 2 0 1]).map Block.hash = [2] := by
      decide +kernel
    have isRow : 2 ∈ (standardSettings.blockRows [plainBlock 2 0 1]).map Block.hash := by
      rw [rows]
      exact List.mem_singleton_self 2
    exact Or.inr (List.mem_map.mp isRow)

/-- After it is, the update applies the interval. -/
theorem committed_applied :
    ∃ pending, AdvancesAfter standardSettings (beforeFinish commitTwo) finishTwo pending ∧
      AppliesInterval standardSettings (beforeFinish commitTwo) finishTwo pending ∧
      ((beforeFinish commitTwo).step standardSettings finishTwo).world.db.balanceOf "payee" =
        5 := by
  obtain ⟨pending, advances, _⟩ :=
    @exists_of_advancesToTwo (beforeFinish commitTwo) (by decide +kernel)
  -- The saves that are decided on are those of block 2 after block 1.
  have commits {watched : IntervalWorld} {input : CheckpointInput} {script : Script}
      (changes : watched.changes = [.prune 1 .first, .insert [plainBlock 2 0 1]])
      (saves : savesTwo watched input = true) :
      CommitsFirst standardSettings timestampOfTwo firstIntervalWorld.db watched
        (.start input script) := by
    intro loop checkpoint force ready previous looping decided isPrevious
    obtain ⟨two, isOne⟩ := eq_of_savesTwo saves looping decided
    rw [changes]
    refine ⟨available_of_commitTwo (Or.inr two), fun hash parsed => ?_⟩
    cases isOne.symm.trans isPrevious
    cases (Hash.fromStr_encode 1).symm.trans parsed
    exact available_of_commitTwo (Or.inl rfl)
  have timedInserts : ∀ event ∈ (commitTwo ++ saveTwo) ++ [finishTwo],
      TimedInsert standardSettings timestampOfTwo event := by
    refine List.forall_mem_cons.mpr ⟨?_, ?_⟩
    · unfold TimedInsert Timed
      decide +kernel
    · simp [saveTwo, finishTwo, TimedInsert]
  have along := @appliesInterval_of_run standardSettings timestampOfTwo firstIntervalWorld rfl
    (by decide +kernel) (by unfold Timed; decide +kernel) (fun _ => by rintro ⟨⟩) _ timedInserts
    ⟨trivial, fun _ => by rintro ⟨⟩, commits rfl (by decide +kernel),
      commits rfl (by decide +kernel), trivial, trivial⟩
  refine ⟨pending, advances, (along_append.mp along).2.1 _ advances, by decide +kernel⟩

end VecnoIndexer
