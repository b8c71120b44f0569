import VecnoIndexer.Checkpoint.Safety

/-!
# What the checkpoint loop remembers

Notifications of the transaction processor are remembered until a candidate is
evaluated; then all of them are cleared, whichever block they were for and whether
or not the candidate is saved.  A block is found ready when it becomes the
candidate exactly if it was notified again after the last evaluation.
-/

namespace VecnoIndexer

open VecnoIndexer.Sql
open VecnoIndexer.Collections
open VecnoIndexer.Transition

/-- The processor together with what it has dequeued, and what of that came after
the last evaluation of a candidate. -/
structure RecalledWorld where
  watched : WatchedWorld
  recent : List CheckpointBlock

/-- The iteration finds a candidate and evaluates it. -/
def CheckpointWorld.evaluates (cliArgs : CliArgs) (world : CheckpointWorld)
    (input : CheckpointInput) : Bool :=
  world.loop.any fun loop => (loop.receive cliArgs input).checkpointCandidate.isSome

def recentAfter (cliArgs : CliArgs) (recalled : RecalledWorld) :
    CheckpointEvent → List CheckpointBlock
  | .iteration input _ _ =>
      if recalled.watched.world.evaluates cliArgs input then []
      else recalled.recent ++ input.popped.toList
  | .restart _ _ => []

def RecalledWorld.step (cliArgs : CliArgs) (recalled : RecalledWorld) (event : CheckpointEvent) :
    RecalledWorld where
  watched := recalled.watched.step cliArgs event
  recent := recentAfter cliArgs recalled event

/-- A candidate whose transactions were notified in this run is found ready for
transactions by the iteration. -/
def FindsNotified (cliArgs : CliArgs) (recalled : RecalledWorld) : CheckpointEvent → Prop
  | .iteration input _ _ =>
      ∀ loop checkpoint, recalled.watched.world.loop = some loop →
        (loop.receive cliArgs input).checkpointCandidate = some checkpoint →
        Notified (recalled.watched.dequeued ++ input.popped.toList) .transactions
          checkpoint.hash →
        ((loop.receive cliArgs input).checkReadiness cliArgs checkpoint.hash).cpOkTxs = true
  | .restart _ _ => True

/-- If the iteration adopts a candidate whose transactions were notified before, then
they were notified after the last evaluation of another candidate. -/
def AdoptsRecent (cliArgs : CliArgs) (recalled : RecalledWorld) : CheckpointEvent → Prop
  | .iteration input _ _ =>
      ∀ loop checkpoint, recalled.watched.world.loop = some loop →
        loop.checkpointCandidate = none →
        (loop.receive cliArgs input).checkpointCandidate = some checkpoint →
        Notified recalled.watched.dequeued .transactions checkpoint.hash →
        Notified recalled.recent .transactions checkpoint.hash
  | .restart _ _ => True

namespace CheckpointLoop

variable {cliArgs : CliArgs} {loop : CheckpointLoop} {input : CheckpointInput}
  {dequeued : List CheckpointBlock}

/-- What is remembered are the hashes notified in a list of notifications. -/
def Recalls (loop : CheckpointLoop) (recent : List CheckpointBlock) : Prop :=
  ∀ hash, hash ∈ loop.txsProcessed ↔ Notified recent .transactions hash

theorem notified_append_iff {block : CheckpointBlock} {origin : CheckpointOrigin} {hash : Hash} :
    Notified (dequeued ++ [block]) origin hash ↔
      Notified dequeued origin hash ∨ (block.origin = origin ∧ block.hash = hash) := by
  simp only [Notified, List.mem_append, List.mem_singleton, or_and_right, exists_or,
    exists_eq_left]

theorem notified_append_toList_iff {popped : Option CheckpointBlock} {origin : CheckpointOrigin}
    {hash : Hash} (different : ∀ block, popped = some block → block.origin ≠ origin) :
    Notified (dequeued ++ popped.toList) origin hash ↔ Notified dequeued origin hash := by
  cases popped with
  | none => simp
  | some block => simp [notified_append_iff, different block rfl]

/-- What receiving does to the memory and the candidate: a notification of the
transaction processor is remembered and changes nothing else, any other leaves the
memory and the candidate, unless it becomes the candidate with its flag down. -/
theorem receive_cases (cliArgs : CliArgs) (loop : CheckpointLoop) (input : CheckpointInput) :
    (∃ block, input.popped = some block ∧ block.origin = .transactions ∧
      loop.receive cliArgs input =
        { loop with txsProcessed := insert block.hash loop.txsProcessed }) ∨
    ((∀ block, input.popped = some block → block.origin ≠ .transactions) ∧
      (loop.receive cliArgs input).txsProcessed = loop.txsProcessed ∧
      (((loop.receive cliArgs input).checkpointCandidate = loop.checkpointCandidate ∧
          (loop.receive cliArgs input).cpOkTxs = loop.cpOkTxs) ∨
        (loop.checkpointCandidate = none ∧ (loop.receive cliArgs input).cpOkTxs = false))) := by
  have adopted (block : CheckpointBlock) :
      (loop.adopt input.adoptNow block).txsProcessed = loop.txsProcessed ∧
        (((loop.adopt input.adoptNow block).checkpointCandidate = loop.checkpointCandidate ∧
            (loop.adopt input.adoptNow block).cpOkTxs = loop.cpOkTxs) ∨
          (loop.checkpointCandidate = none ∧
            (loop.adopt input.adoptNow block).cpOkTxs = false)) := by
    unfold CheckpointLoop.adopt
    split
    · rename_i adopts
      exact ⟨rfl, Or.inr ⟨adopts.1, rfl⟩⟩
    · exact ⟨rfl, Or.inl ⟨rfl, rfl⟩⟩
  unfold CheckpointLoop.receive
  cases popped : input.popped with
  | none =>
      refine Or.inr ⟨?_, rfl, Or.inl ⟨rfl, rfl⟩⟩
      rintro _ ⟨⟩
  | some block =>
      have isOther (different : block.origin ≠ .transactions) :
          ∀ other, some block = some other → other.origin ≠ .transactions := by
        rintro _ ⟨⟩
        exact different
      simp only [dequeue]
      cases origin : block.origin with
      | transactions => exact Or.inl ⟨block, rfl, origin, rfl⟩
      | blocks =>
          refine Or.inr ⟨isOther (by simp [origin]), ?_⟩
          simp only
          split
          · exact adopted block
          · exact ⟨rfl, Or.inl ⟨rfl, rfl⟩⟩
      | vcp => exact Or.inr ⟨isOther (by simp [origin]), adopted block⟩
      | initial => exact Or.inr ⟨isOther (by simp [origin]), rfl, Or.inl ⟨rfl, rfl⟩⟩

theorem Recalls.receive {recent : List CheckpointBlock} (recalls : loop.Recalls recent)
    (cliArgs : CliArgs) (input : CheckpointInput) :
    (loop.receive cliArgs input).Recalls (recent ++ input.popped.toList) := by
  intro hash
  rcases receive_cases cliArgs loop input with
    ⟨block, popped, origin, received⟩ | ⟨other, same, _⟩
  · rw [received, popped, Option.toList_some, notified_append_iff, Finset.mem_insert, recalls]
    simp only [origin, true_and]
    rw [or_comm, eq_comm]
  · rw [same, recalls, notified_append_toList_iff other]

end CheckpointLoop

/-! ## Runs -/

section Runs

variable {cliArgs : CliArgs} {recalled : RecalledWorld}

/-- The loop remembers exactly what was notified since the last evaluation. -/
structure RecalledWorld.Remembers (recalled : RecalledWorld) : Prop where
  recalls : ∀ loop, recalled.watched.world.loop = some loop → loop.Recalls recalled.recent
  dequeued : ∀ hash, Notified recalled.recent .transactions hash →
    Notified recalled.watched.dequeued .transactions hash

/-- A candidate that waits has its flag up if its transactions were notified. -/
def RecalledWorld.Ready (recalled : RecalledWorld) : Prop :=
  ∀ loop checkpoint, recalled.watched.world.loop = some loop →
    loop.checkpointCandidate = some checkpoint →
    Notified recalled.watched.dequeued .transactions checkpoint.hash → loop.cpOkTxs = true

/-- The step lemma for the memory; it needs no condition. -/
theorem RecalledWorld.Remembers.step (remembers : recalled.Remembers) (cliArgs : CliArgs)
    (event : CheckpointEvent) : (recalled.step cliArgs event).Remembers := by
  cases event with
  | restart now script =>
      constructor
      · intro after survives
        obtain ⟨previous, rfl⟩ := loop_step_restart cliArgs survives
        intro hash
        simp [CheckpointLoop.start, RecalledWorld.step, recentAfter, Notified]
      · simp [RecalledWorld.step, recentAfter, Notified]
  | iteration input hashOrder script =>
      constructor
      · intro after survives
        cases running : recalled.watched.world.loop with
        | none =>
            simp [RecalledWorld.step, WatchedWorld.step, CheckpointWorld.step, running] at survives
        | some loop =>
            have received := (remembers.recalls loop running).receive cliArgs input
            rcases CheckpointLoop.survivor_cases running survives with
              ⟨idle, rfl⟩ | ⟨checkpoint, candidate, _, noTxs, _⟩
            · simpa [RecalledWorld.step, recentAfter, CheckpointWorld.evaluates, running, idle]
                using received
            · intro hash
              simp [RecalledWorld.step, recentAfter, CheckpointWorld.evaluates, running,
                candidate, noTxs, Notified]
      · intro hash notified
        simp only [RecalledWorld.step, recentAfter] at notified
        split at notified
        · simp [Notified] at notified
        · obtain ⟨block, blockMem, origin, blockHash⟩ := notified
          rcases List.mem_append.mp blockMem with recent | popped
          · exact (remembers.dequeued hash ⟨block, recent, origin, blockHash⟩).append _
          · exact ⟨block, List.mem_append_right _ popped, origin, blockHash⟩

/-- A candidate is found ready if it was adopted with its notification remembered. -/
theorem RecalledWorld.Ready.finds (ready : recalled.Ready) (remembers : recalled.Remembers)
    {event : CheckpointEvent} (adopts : AdoptsRecent cliArgs recalled event) :
    FindsNotified cliArgs recalled event := by
  cases event with
  | restart now script => trivial
  | iteration input hashOrder script =>
      intro loop checkpoint running candidate notified
      have found : (loop.receive cliArgs input).cpOkTxs = true ∨
          checkpoint.hash ∈ (loop.receive cliArgs input).txsProcessed := by
        rcases CheckpointLoop.receive_cases cliArgs loop input with
          ⟨block, popped, origin, received⟩ | ⟨other, same, ⟨kept, flag⟩ | ⟨idle, _⟩⟩
        · rw [received] at candidate ⊢
          rw [popped, Option.toList_some, CheckpointLoop.notified_append_iff] at notified
          rcases notified with before | ⟨_, sameHash⟩
          · exact Or.inl (ready loop checkpoint running candidate before)
          · exact Or.inr (Finset.mem_insert.mpr (Or.inl sameHash.symm))
        · have before := (CheckpointLoop.notified_append_toList_iff other).mp notified
          rw [kept] at candidate
          rw [flag]
          exact Or.inl (ready loop checkpoint running candidate before)
        · have before := (CheckpointLoop.notified_append_toList_iff other).mp notified
          have recent := adopts loop checkpoint running idle candidate before
          rw [same]
          exact Or.inr ((remembers.recalls loop running checkpoint.hash).mpr recent)
      rcases found with flag | remembered
      · simp [CheckpointLoop.checkReadiness, flag]
      · simp [CheckpointLoop.checkReadiness, remembered]

/-- The step lemma for the flag of a candidate that waits. -/
theorem RecalledWorld.Ready.step {event : CheckpointEvent}
    (finds : FindsNotified cliArgs recalled event) : (recalled.step cliArgs event).Ready := by
  intro after checkpoint survives waits notified
  cases event with
  | restart now script =>
      obtain ⟨previous, rfl⟩ := loop_step_restart cliArgs survives
      contradiction
  | iteration input hashOrder script =>
      cases running : recalled.watched.world.loop with
      | none =>
          simp [RecalledWorld.step, WatchedWorld.step, CheckpointWorld.step, running] at survives
      | some loop =>
          rcases CheckpointLoop.survivor_cases running survives with
            ⟨idle, rfl⟩ | ⟨block, candidate, _, _, dropped | ⟨waiting, _, flag⟩⟩
          · rw [idle] at waits
            contradiction
          · rw [dropped] at waits
            contradiction
          · cases waiting.symm.trans waits
            rw [flag]
            exact finds loop checkpoint running candidate notified

/-- Where transactions are processed, only a remembered notification makes a
candidate ready when it is adopted. -/
theorem RecalledWorld.Remembers.adopts (remembers : recalled.Remembers)
    (enabled : cliArgs.isDisabled .transactionProcessing = false) {event : CheckpointEvent}
    (finds : FindsNotified cliArgs recalled event) : AdoptsRecent cliArgs recalled event := by
  cases event with
  | restart now script => trivial
  | iteration input hashOrder script =>
      intro loop checkpoint running idle candidate notified
      have flag := finds loop checkpoint running candidate (notified.append _)
      rcases CheckpointLoop.receive_cases cliArgs loop input with
        ⟨block, _, _, received⟩ | ⟨_, same, ⟨kept, _⟩ | ⟨_, down⟩⟩
      · rw [received] at candidate
        exact absurd (candidate.symm.trans idle) (by simp)
      · rw [kept, idle] at candidate
        contradiction
      · simp only [CheckpointLoop.checkReadiness, down, enabled, Bool.or_false, Bool.false_or,
          decide_eq_true_eq, same] at flag
        exact (remembers.recalls loop running checkpoint.hash).mp flag

/-- A run begins with a fresh loop, or none, and nothing dequeued. -/
def RecalledWorld.Fresh (recalled : RecalledWorld) : Prop :=
  recalled.watched.Fresh ∧ recalled.recent = []

theorem RecalledWorld.Fresh.remembers (fresh : recalled.Fresh) : recalled.Remembers := by
  obtain ⟨⟨_, started⟩, noRecent⟩ := fresh
  constructor
  · intro loop running hash
    obtain ⟨now, previous, rfl⟩ := started loop running
    simp [CheckpointLoop.start, noRecent, Notified]
  · simp [noRecent, Notified]

theorem RecalledWorld.Fresh.ready (fresh : recalled.Fresh) : recalled.Ready := by
  intro loop checkpoint running waits
  obtain ⟨now, previous, rfl⟩ := fresh.1.2 loop running
  contradiction

/-- In a run every candidate whose transactions were notified is found ready by each
iteration that evaluates it, exactly if no block is adopted whose last notification
came before the evaluation of another candidate. -/
theorem finds_iff_adopts_of_run
    (enabled : cliArgs.isDisabled .transactionProcessing = false) (fresh : recalled.Fresh)
    (events : List CheckpointEvent) :
    Along (RecalledWorld.step cliArgs) (FindsNotified cliArgs) recalled events ↔
      Along (RecalledWorld.step cliArgs) (AdoptsRecent cliArgs) recalled events := by
  constructor
  · apply Along.of_invariant _ fresh.remembers
    intro middle event remembers finds
    exact ⟨remembers.adopts enabled finds, remembers.step cliArgs event⟩
  · have preserved : ∀ (middle : RecalledWorld) (event : CheckpointEvent),
        middle.Remembers ∧ middle.Ready → AdoptsRecent cliArgs middle event →
        FindsNotified cliArgs middle event ∧
          (middle.step cliArgs event).Remembers ∧ (middle.step cliArgs event).Ready := by
      rintro middle event ⟨remembers, ready⟩ adopts
      have finds := ready.finds remembers adopts
      exact ⟨finds, remembers.step cliArgs event, RecalledWorld.Ready.step finds⟩
    exact Along.of_invariant preserved ⟨fresh.remembers, fresh.ready⟩

end Runs

/-! ## A notification that is forgotten -/

def freshRecalled : RecalledWorld where
  watched := freshWorld
  recent := []

theorem freshRecalled_fresh : freshRecalled.Fresh :=
  ⟨freshWorld_fresh, rfl⟩

/-- An iteration that pops a notification for a block and reads one time. -/
def popAt (seconds : ℕ) (origin : CheckpointOrigin) (hash : Hash) : CheckpointInput where
  popped := some ⟨origin, hash, 0, 0, 0⟩
  adoptNow := seconds * 1000000000
  evaluateNow := seconds * 1000000000
  warnNow := seconds * 1000000000
  recordNow := seconds * 1000000000

/-- The transactions of block 3 are notified while block 2 waits for its own. -/
def overtakenEvents : List CheckpointEvent :=
  [.iteration (popAt 31 .vcp 2) .listed fun _ => .succeeds,
    .iteration (popAt 32 .transactions 3) .listed fun _ => .succeeds,
    .iteration (popAt 33 .transactions 2) .listed fun _ => .succeeds,
    .iteration (popAt 64 .vcp 3) .listed fun _ => .succeeds]

/-- Block 3 is adopted with its notification cleared, and is not found ready. -/
theorem overtaken_not_found :
    freshRecalled.Fresh ∧
      ¬ Along (RecalledWorld.step .standard) (FindsNotified .standard) freshRecalled
        overtakenEvents := by
  refine ⟨freshRecalled_fresh, ?_⟩
  rintro ⟨_, _, _, finds, _⟩
  let middle := runFrom (RecalledWorld.step .standard) freshRecalled (overtakenEvents.take 3)
  have forgotten : ∃ loop ∈ middle.watched.world.loop,
      (loop.receive .standard (popAt 64 .vcp 3)).checkpointCandidate = some ⟨.vcp, 3, 0, 0, 0⟩ ∧
      ((loop.receive .standard (popAt 64 .vcp 3)).checkReadiness .standard 3).cpOkTxs = false := by
    decide +kernel
  obtain ⟨loop, running, candidate, down⟩ := forgotten
  have flag := finds loop ⟨.vcp, 3, 0, 0, 0⟩ running candidate (by decide +kernel)
  exact Bool.false_ne_true (down.symm.trans flag)

/-- The same blocks, the second one notified after the first is saved. -/
def inOrderEvents : List CheckpointEvent :=
  [.iteration (popAt 31 .vcp 2) .listed fun _ => .succeeds,
    .iteration (popAt 33 .transactions 2) .listed fun _ => .succeeds,
    .iteration (popAt 34 .transactions 3) .listed fun _ => .succeeds,
    .iteration (popAt 64 .vcp 3) .listed fun _ => .succeeds]

theorem inOrder_found :
    Along (RecalledWorld.step .standard) (FindsNotified .standard) freshRecalled
      inOrderEvents := by
  apply (finds_iff_adopts_of_run rfl freshRecalled_fresh inOrderEvents).mpr
  refine ⟨?_, ?_, ?_, ?_, trivial⟩
  · rintro loop checkpoint ⟨⟩ _ _ notified
    simp [Notified, freshRecalled, freshWorld] at notified
  · rintro loop checkpoint ⟨⟩ ⟨⟩
  · intro loop checkpoint running idle candidate
    rcases CheckpointLoop.receive_cases .standard loop (popAt 34 .transactions 3) with
      ⟨_, _, _, received⟩ | ⟨other, _⟩
    · rw [received] at candidate
      exact absurd (candidate.symm.trans idle) (by simp)
    · exact absurd rfl (other _ rfl)
  · intro loop checkpoint running _ candidate _
    let middle := runFrom (RecalledWorld.step .standard) freshRecalled (inOrderEvents.take 3)
    have remembered : ∀ loop ∈ middle.watched.world.loop,
        ∀ checkpoint ∈ (loop.receive .standard (popAt 64 .vcp 3)).checkpointCandidate,
          Notified middle.recent .transactions checkpoint.hash := by
      decide +kernel
    exact remembered loop running checkpoint candidate

end VecnoIndexer
