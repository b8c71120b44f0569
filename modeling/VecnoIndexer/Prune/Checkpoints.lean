import VecnoIndexer.Blocks.Table
import VecnoIndexer.Prune.Orphans

/-!
# Blocks that balance tracking still needs

The next balance update reads the row of the checkpoint remembered and the rows with a
higher blue score.  The transactions step of the pruner waits for the checkpoint; its
blocks step does not, and takes such rows as soon as its cutoff is past them.  While
every cutoff stays behind them, what was needed since a checkpoint was remembered is in
the table until the next one is.
-/

namespace VecnoIndexer

open VecnoIndexer.Sql
open VecnoIndexer.Transition

/-- The row is the checkpoint's, or has a blue score above the checkpoint's. -/
def NeededFrom (score : Hash → Int) (previous : Option String) (row : Block) : Prop :=
  ∃ hash, previous = some hash.encode ∧
    (row.hash = hash ∨ ∃ blueScore, row.blueScore = some blueScore ∧ score hash < blueScore)

/-- The world, and the rows that were needed since the checkpoint was remembered. -/
structure NeededWorld where
  world : BlocksWorld
  needed : Block → Prop

namespace NeededWorld

/-- The rows needed now. -/
def stored (score : Hash → Int) (world : BlocksWorld) (row : Block) : Prop :=
  row ∈ world.db.blocks ∧ NeededFrom score world.previousCheckpoint row

/-- The beginning of a run. -/
def start (score : Hash → Int) (world : BlocksWorld) : NeededWorld :=
  ⟨world, stored score world⟩

/-- Another checkpoint starts anew. -/
def step (settings : BlocksSettings) (score : Hash → Int) (watched : NeededWorld)
    (event : BlocksEvent) : NeededWorld :=
  let next := watched.world.step settings event
  ⟨next, fun row => stored score next row ∨
    (next.previousCheckpoint = watched.world.previousCheckpoint ∧ watched.needed row)⟩

end NeededWorld

/-- The step deletes no row that is needed when it is taken. -/
def SparesNeeded (settings : BlocksSettings) (score : Hash → Int) (watched : NeededWorld)
    (event : BlocksEvent) : Prop :=
  ∀ row, NeededWorld.stored score watched.world row →
    row ∈ (watched.world.step settings event).db.blocks

/-- A statement of the pruner finds its cutoff no later than the time of any row that is
needed. -/
def CutoffBehind (settings : BlocksSettings) (score : Hash → Int) (watched : NeededWorld) :
    BlocksEvent → Prop
  | .change (.prune start _) =>
      ∀ cutoff, settings.blocksCutoff start = some cutoff →
        ∀ row, NeededWorld.stored score watched.world row →
          ∀ time, row.timestamp = some time → cutoff ≤ time
  | _ => True

section Steps

variable {settings : BlocksSettings} {score : Hash → Int} {watched : NeededWorld}

/-- The step lemma. -/
theorem sparesNeeded_of_cutoffBehind {event : BlocksEvent}
    (behind : CutoffBehind settings score watched event) :
    SparesNeeded settings score watched event := by
  intro row stored
  cases event with
  | change change =>
      cases change with
      | insert blocks => exact Table.mem_insertAll_of_mem stored.1
      | prune start choice =>
          apply settings.mem_change_prune stored.1
          intro cutoff cutoffEq
          exact not_expiredAt (behind cutoff cutoffEq row stored)
      | other change => exact stored.1
  | start input script =>
      rw [BlocksWorld.blocks_step settings watched.world fun _ => BlocksEvent.noConfusion]
      exact stored.1
  | finish hashOrder recordNow script =>
      rw [BlocksWorld.blocks_step settings watched.world fun _ => BlocksEvent.noConfusion]
      exact stored.1
  | restart now script =>
      rw [BlocksWorld.blocks_step settings watched.world fun _ => BlocksEvent.noConfusion]
      exact stored.1

/-- What was needed since the checkpoint was remembered is needed and in the table. -/
def NeededWorld.Holds (score : Hash → Int) (watched : NeededWorld) : Prop :=
  ∀ row, watched.needed row → NeededWorld.stored score watched.world row

theorem NeededWorld.Holds.step (holds : watched.Holds score) {event : BlocksEvent}
    (behind : CutoffBehind settings score watched event) :
    SparesNeeded settings score watched event ∧
      (watched.step settings score event).Holds score := by
  have spares := sparesNeeded_of_cutoffBehind behind
  refine ⟨spares, ?_⟩
  rintro row (now | ⟨same, before⟩)
  · exact now
  · have stored := holds row before
    refine ⟨spares row stored, ?_⟩
    rw [NeededWorld.step, same]
    exact stored.2

/-- In every run whose cutoffs stay behind what is needed, no step deletes a row that is
needed, and all rows that were needed since the checkpoint was remembered are there. -/
theorem sparesNeeded_of_run (settings : BlocksSettings) (score : Hash → Int) (world : BlocksWorld)
    (events : List BlocksEvent)
    (behind : Along (NeededWorld.step settings score) (CutoffBehind settings score)
      (NeededWorld.start score world) events) :
    Along (NeededWorld.step settings score) (SparesNeeded settings score)
        (NeededWorld.start score world) events ∧
      ∀ row, (runFrom (NeededWorld.step settings score) (NeededWorld.start score world)
          events).needed row →
        row ∈ (runFrom (NeededWorld.step settings score) (NeededWorld.start score world)
          events).world.db.blocks := by
  have initial : (NeededWorld.start score world).Holds score := fun row stored => stored
  constructor
  · exact behind.of_invariant (fun _ _ holds now => holds.step now) initial
  · have kept : ∀ middle event, NeededWorld.Holds score middle →
        CutoffBehind settings score middle event →
        (middle.step settings score event).Holds score :=
      fun _ _ holds now => (holds.step now).2
    exact fun row needed => (invariant_of_along kept initial behind row needed).1

/-! ## A whole blocks step -/

/-- A blocks step that ends, with a positive batch size, spares what is needed exactly if
its cutoff is behind it. -/
theorem pruneBlocks_spares_iff {cutoff : Int} {previous : Option String} {db after : Db}
    {choices : ℕ → LimitChoice (Block × ℕ)} {script rest : Script} {total : ℕ}
    (positive : 0 < settings.config.pruneBatchSize)
    (ran : Session.run (pruneBlocks cutoff settings.config.pruneBatchSize choices) db script =
      .done total after rest) :
    (∀ row ∈ db.blocks, NeededFrom score previous row → row ∈ after.blocks) ↔
      ∀ row ∈ db.blocks, NeededFrom score previous row →
        ∀ time, row.timestamp = some time → cutoff ≤ time := by
  obtain ⟨_, rfl⟩ := (Deletion.eq_of_done_deleteLoop ran).resolve_right fun zero => by omega
  have left (row : Block) : row ∈ ((expiredBlocks cutoff).all db).blocks ↔
      row ∈ db.blocks ∧ ¬ expiredAt cutoff row.timestamp = true :=
    Table.mem_deleteWhere
  constructor
  · intro spares row rowMem needed time timeEq
    have kept := ((left row).mp (spares row rowMem needed)).2
    by_contra later
    apply kept
    rw [timeEq]
    exact decide_eq_true (not_le.mp later)
  · intro behind row rowMem needed
    exact (left row).mpr ⟨rowMem, not_expiredAt (behind row rowMem needed)⟩

end Steps

/-! ## Catching up on old blocks -/

def weekSettings : BlocksSettings where
  earliest := -8000000000000000000000
  cliArgs := .standard
  config := weekConfig

def catchUpScore (hash : Hash) : Int :=
  hash.toNat

/-- Checkpoint 2 is remembered. -/
def catchUpWorld : BlocksWorld where
  db := Db.empty
  task := some (.looping (.start 0 (some (Hash.encode 2))))

/-- Blocks 1 to 3 are inserted, each with its number as blue score, and then a run of the
pruner comes to its blocks step. -/
def catchUpEvents (timestamp : UInt64) : List BlocksEvent :=
  [.change (.insert [plainBlock 1 1000 1, plainBlock 2 timestamp 2, plainBlock 3 timestamp 3]),
    .change (.prune 610000 .first)]

/-- The row of a block. -/
def catchUpRow (hash : Hash) (timestamp blueScore : Int) : Block where
  hash := hash
  acceptedIdMerkleRoot := some 0
  mergeSetBluesHashes := none
  mergeSetRedsHashes := none
  selectedParentHash := some 0
  bits := some 0
  blueScore := some blueScore
  blueWork := some []
  daaScore := some blueScore
  hashMerkleRoot := some 0
  nonce := some [0, 0, 0, 0, 0, 0, 0, 0]
  pruningPoint := some 0
  timestamp := some timestamp
  utxoCommitment := some 0
  version := some 1

/-- Blocks older than a week are pruned although their blue score is above the
checkpoint's. -/
theorem oldBlocks_not_spared :
    ¬ Along (NeededWorld.step weekSettings catchUpScore)
        (SparesNeeded weekSettings catchUpScore)
        (NeededWorld.start catchUpScore catchUpWorld) (catchUpEvents 2000) := by
  rintro ⟨_, spares, _⟩
  have needed : NeededFrom catchUpScore (some (Hash.encode 2)) (catchUpRow 3 2000 3) :=
    ⟨2, rfl, Or.inr ⟨3, rfl, by decide⟩⟩
  have gone := spares (catchUpRow 3 2000 3) ⟨by decide +kernel, needed⟩
  revert gone
  decide +kernel

/-- With the checkpoint within the week only block 1 is. -/
theorem recentBlocks_spared :
    Along (NeededWorld.step weekSettings catchUpScore) (SparesNeeded weekSettings catchUpScore)
        (NeededWorld.start catchUpScore catchUpWorld) (catchUpEvents 6000000) ∧
      (runFrom (BlocksWorld.step weekSettings) catchUpWorld
          (catchUpEvents 6000000)).db.blocks.rows =
        [catchUpRow 2 6000000 2, catchUpRow 3 6000000 3] := by
  constructor
  · apply (sparesNeeded_of_run weekSettings catchUpScore catchUpWorld _ _).1
    refine ⟨trivial, ?_, trivial⟩
    intro cutoff cutoffEq row ⟨rowMem, hash, remembered, needed⟩ time timeEq
    have cutoffIs : weekSettings.blocksCutoff 610000 = some 5200000 := by decide +kernel
    cases cutoffIs.symm.trans cutoffEq
    have rows : (weekSettings.change Db.empty (.insert [plainBlock 1 1000 1,
        plainBlock 2 6000000 2, plainBlock 3 6000000 3])).blocks.rows =
          [catchUpRow 1 1000 1, catchUpRow 2 6000000 2, catchUpRow 3 6000000 3] := by
      decide +kernel
    have isTwo : (2 : Hash) = hash := Hash.encode_injective (Option.some.inj remembered)
    subst isTwo
    change row ∈ (weekSettings.change Db.empty _).blocks.rows at rowMem
    rw [rows] at rowMem
    rcases List.mem_cons.mp rowMem with rfl | later
    · rcases needed with same | ⟨_, ⟨⟩, higher⟩
      · exact absurd same (by decide)
      · exact absurd higher (by decide)
    · have recent : ∀ other ∈ [catchUpRow 2 6000000 2, catchUpRow 3 6000000 3],
          other.timestamp = some 6000000 := by
        simp [catchUpRow]
      cases timeEq.symm.trans (recent row later)
      decide
  · decide +kernel

end VecnoIndexer
