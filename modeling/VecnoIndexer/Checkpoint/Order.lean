import VecnoIndexer.Checkpoint.ExactlyOnce

/-!
# The order of saved checkpoints

Notifications are numbered in the order in which they are dequeued.  The candidate
keeps the number of the notification it came from, and a save writes at most that one.
The candidate is always newer than what was written, so the numbers written increase.
-/

namespace VecnoIndexer

open VecnoIndexer.Sql
open VecnoIndexer.Collections
open VecnoIndexer.Transition

/-- The processor with the notifications it has dequeued, the number of the one its
candidate came from, the numbers of those it has written, and the time of its last attempt
to save. -/
structure OrderedWorld where
  world : CheckpointWorld
  dequeued : List CheckpointBlock
  candidateAt : Option ℕ
  written : List ℕ
  lastAttempt : ℕ

/-- A step of the processor or of a component that does not write `vars`. -/
inductive OrderedEvent where
  | iteration (input : CheckpointInput) (hashOrder : Reordering (String × Int)) (script : Script)
  | other (change : Db → Db)

/-- A notification that may become the candidate. -/
def CheckpointBlock.Proposes (cliArgs : CliArgs) (block : CheckpointBlock) : Prop :=
  block.origin = .vcp ∨
    (block.origin = .blocks ∧ cliArgs.isDisabled .virtualChainProcessing = true)

/-- The statement of a save that writes the checkpoint is executed. -/
def CheckpointLoop.writes (hashOrder : Reordering (String × Int)) (loop : CheckpointLoop)
    (checkpoint : CheckpointBlock) (db : Db) (script : Script) : Bool :=
  match Session.run (updateBalances hashOrder loop.previousCheckpoint checkpoint.hash.encode)
      db script with
  | .done _ _ rest => decide (rest 0 = .succeeds)
  | _ => false

namespace OrderedWorld

def start (db : Db) (now : ℕ) (previousCheckpoint : Option String) : OrderedWorld where
  world := ⟨db, some (.start now previousCheckpoint)⟩
  dequeued := []
  candidateAt := none
  written := []
  lastAttempt := now

/-- The number of the candidate after a notification was received. -/
def receivedAt (ordered : OrderedWorld) (loop received : CheckpointLoop) : Option ℕ :=
  if loop.checkpointCandidate = none ∧ received.checkpointCandidate ≠ none then
    some ordered.dequeued.length
  else
    ordered.candidateAt

def step (cliArgs : CliArgs) (ordered : OrderedWorld) : OrderedEvent → OrderedWorld
  | .iteration input hashOrder script =>
      match ordered.world.loop with
      | none => ordered
      | some loop =>
          let received := loop.receive cliArgs input
          let candidateAt := ordered.receivedAt loop received
          let next := { ordered with
            world := ordered.world.step cliArgs (.iteration input hashOrder script)
            dequeued := ordered.dequeued ++ input.popped.toList
            candidateAt }
          match received.evaluate cliArgs input with
          | .save checkpoint _ ready =>
              { next with
                candidateAt := none
                written :=
                  if ready.writes hashOrder checkpoint ordered.world.db script then
                    ordered.written ++ candidateAt.toList
                  else
                    ordered.written
                lastAttempt := input.recordNow }
          | _ => next
  | .other change =>
      let db := { change ordered.world.db with vars := ordered.world.db.vars }
      { ordered with world := ⟨db, ordered.world.loop⟩ }

end OrderedWorld

/-! ## One iteration -/

namespace CheckpointLoop

variable {cliArgs : CliArgs} {loop : CheckpointLoop} {input : CheckpointInput}

/-- Receiving leaves the candidate, or takes a notification that proposes one. -/
theorem receive_candidate_cases (cliArgs : CliArgs) (loop : CheckpointLoop)
    (input : CheckpointInput) :
    (loop.receive cliArgs input).checkpointLastSaved = loop.checkpointLastSaved ∧
      ((loop.receive cliArgs input).checkpointCandidate = loop.checkpointCandidate ∨
        ∃ block, input.popped = some block ∧ block.Proposes cliArgs ∧
          loop.Adopts input.adoptNow ∧
          (loop.receive cliArgs input).checkpointCandidate = some block) := by
  have adopted : ∀ block : CheckpointBlock, input.popped = some block → block.Proposes cliArgs →
      (loop.adopt input.adoptNow block).checkpointLastSaved = loop.checkpointLastSaved ∧
        ((loop.adopt input.adoptNow block).checkpointCandidate = loop.checkpointCandidate ∨
          ∃ block', input.popped = some block' ∧ block'.Proposes cliArgs ∧
            loop.Adopts input.adoptNow ∧
            (loop.adopt input.adoptNow block).checkpointCandidate = some block') := by
    intro block popped proposes
    unfold adopt
    split
    · rename_i adopts
      exact ⟨rfl, Or.inr ⟨block, popped, proposes, adopts, rfl⟩⟩
    · exact ⟨rfl, Or.inl rfl⟩
  unfold receive
  cases popped : input.popped with
  | none => exact ⟨rfl, Or.inl rfl⟩
  | some block =>
      simp only [dequeue]
      cases origin : block.origin with
      | blocks =>
          simp only
          split
          · rename_i disabled
            exact popped ▸ adopted block popped (Or.inr ⟨origin, disabled⟩)
          · exact ⟨rfl, Or.inl rfl⟩
      | transactions => exact ⟨rfl, Or.inl rfl⟩
      | vcp => exact popped ▸ adopted block popped (Or.inl origin)
      | initial => exact ⟨rfl, Or.inl rfl⟩

/-- Only the candidate is saved. -/
theorem candidate_of_evaluate_eq_save {checkpoint : CheckpointBlock} {force : Bool}
    {ready : CheckpointLoop} (saves : loop.evaluate cliArgs input = .save checkpoint force ready) :
    loop.checkpointCandidate = some checkpoint := by
  unfold evaluate at saves
  cases candidate : loop.checkpointCandidate with
  | none =>
      rw [candidate] at saves
      contradiction
  | some block =>
      simp only [candidate] at saves
      split_ifs at saves <;> cases saves <;> rfl

/-- A candidate that waits stays. -/
theorem eq_of_evaluate_eq_wait {waiting : CheckpointLoop}
    (waits : loop.evaluate cliArgs input = .wait waiting) :
    waiting.checkpointCandidate = loop.checkpointCandidate ∧
      waiting.checkpointLastSaved = loop.checkpointLastSaved := by
  unfold evaluate at waits
  cases candidate : loop.checkpointCandidate with
  | none =>
      rw [candidate] at waits
      contradiction
  | some block =>
      simp only [candidate] at waits
      split_ifs at waits <;> cases waits <;> exact ⟨candidate, rfl⟩

/-! ## What a save leaves -/

theorem keeps_updateBalances {property : Db → Prop}
    (frame : ∀ db balances, property db → property { db with balances })
    (hashOrder : Reordering (String × Int)) (previousCheckpoint : Option String)
    (checkpointHash : String) :
    (updateBalances hashOrder previousCheckpoint checkpointHash).Keeps property := by
  cases previousCheckpoint with
  | none => exact Session.keeps_pure _ _
  | some prevHash =>
      refine (Session.Keeps.attempt ?_).bind fun logged => Session.keeps_pure _ _
      exact (keeps_selectDeltas _ _ _ _).bind fun created =>
        (keeps_selectDeltas _ _ _ _).bind fun spent =>
          keeps_applyDeltas frame hashOrder created spent

theorem keeps_vars_updateBalances (hashOrder : Reordering (String × Int))
    (previousCheckpoint : Option String) (checkpointHash : String)
    (vars : Table Var.primaryKey) :
    (updateBalances hashOrder previousCheckpoint checkpointHash).Keeps
      fun state => state.vars = vars :=
  keeps_updateBalances (fun _ _ => id) hashOrder previousCheckpoint checkpointHash

/-- A save that writes leaves the checkpoint, any other the one before. -/
theorem persisted_save (hashOrder : Reordering (String × Int)) (loop : CheckpointLoop)
    (checkpoint : CheckpointBlock) (recordNow : ℕ) (db : Db) (script : Script) :
    (CheckpointWorld.ofExec
        (Session.run (loop.save hashOrder checkpoint recordNow) db script)).db.persistedCheckpoint =
      if loop.writes hashOrder checkpoint db script then some checkpoint.hash.encode
      else db.persistedCheckpoint := by
  rcases save_cases hashOrder loop checkpoint recordNow db script with
    ⟨middle, rest, updated, succeeds, saved⟩ | ⟨unwritten, after, saved, _⟩
  · rw [saved, writes, updated]
    simp [succeeds]
  · rw [saved]
    have kept := keeps_vars_updateBalances hashOrder loop.previousCheckpoint
      checkpoint.hash.encode db.vars db script rfl
    have notWrites : loop.writes hashOrder checkpoint db script = false := by
      unfold writes
      cases ran : Session.run (updateBalances hashOrder loop.previousCheckpoint
          checkpoint.hash.encode) db script with
      | done value middle rest => exact decide_eq_false (unwritten middle rest ran)
      | failed error middle rest => rfl
      | killed middle => rfl
    rw [notWrites, if_neg Bool.false_ne_true]
    exact persistedCheckpoint_congr kept

end CheckpointLoop

/-! ## Runs -/

namespace OrderedWorld

variable {cliArgs : CliArgs} {initial : Option String} {ordered : OrderedWorld}

/-- The checkpoint written last, or the one before the run. -/
def lastWritten (initial : Option String) (ordered : OrderedWorld) : Option String :=
  match ordered.written.getLast? with
  | none => initial
  | some n => ordered.dequeued[n]?.map fun block => block.hash.encode

/-- What is written comes from ever newer notifications, and the candidate from a newer
one still. -/
structure Ordered (cliArgs : CliArgs) (initial : Option String) (ordered : OrderedWorld) :
    Prop where
  increasing : ordered.written.Pairwise (· < ·)
  proposed : ∀ n ∈ ordered.written, ∃ block, ordered.dequeued[n]? = some block ∧
    block.Proposes cliArgs
  persisted : ordered.world.db.persistedCheckpoint = ordered.lastWritten initial
  saved : ∀ loop, ordered.world.loop = some loop → loop.checkpointLastSaved = ordered.lastAttempt
  candidate : ∀ loop block, ordered.world.loop = some loop →
    loop.checkpointCandidate = some block →
      ∃ n, ordered.candidateAt = some n ∧ ordered.dequeued[n]? = some block ∧
        block.Proposes cliArgs ∧ ∀ m ∈ ordered.written, m < n

/-- Numbers stay when more is dequeued. -/
theorem getElem?_append_of_some {dequeued more : List CheckpointBlock} {n : ℕ}
    {block : CheckpointBlock} (found : dequeued[n]? = some block) :
    (dequeued ++ more)[n]? = some block := by
  obtain ⟨inside, _⟩ := List.getElem?_eq_some_iff.mp found
  rw [List.getElem?_append_left inside]
  exact found

/-- The candidate after a notification was received. -/
theorem Ordered.receive (held : ordered.Ordered cliArgs initial) {loop : CheckpointLoop}
    (running : ordered.world.loop = some loop) (input : CheckpointInput)
    {block : CheckpointBlock}
    (isCandidate : (loop.receive cliArgs input).checkpointCandidate = some block) :
    ∃ n, ordered.receivedAt loop (loop.receive cliArgs input) = some n ∧
      (ordered.dequeued ++ input.popped.toList)[n]? = some block ∧ block.Proposes cliArgs ∧
        ∀ m ∈ ordered.written, m < n := by
  obtain ⟨_, same | ⟨adopted, popped, proposes, adopts, received⟩⟩ :=
    loop.receive_candidate_cases cliArgs input
  · rw [same] at isCandidate
    obtain ⟨n, candidateAt, found, proposes, newer⟩ := held.candidate loop block running isCandidate
    refine ⟨n, ?_, getElem?_append_of_some found, proposes, newer⟩
    rw [receivedAt, if_neg (by simp [isCandidate])]
    exact candidateAt
  · cases received.symm.trans isCandidate
    refine ⟨ordered.dequeued.length, ?_, ?_, proposes, fun m isWritten => ?_⟩
    · rw [receivedAt, if_pos ⟨adopts.1, by simp [received]⟩]
    · rw [popped, Option.toList_some, List.getElem?_append_right le_rfl, Nat.sub_self]
      rfl
    · obtain ⟨_, found, _⟩ := held.proposed m isWritten
      exact (List.getElem?_eq_some_iff.mp found).1

/-- The checkpoint written last stays when more is dequeued. -/
theorem Ordered.lastWritten_append (held : ordered.Ordered cliArgs initial)
    {next : OrderedWorld} (more : List CheckpointBlock)
    (dequeued : next.dequeued = ordered.dequeued ++ more)
    (written : next.written = ordered.written) :
    next.lastWritten initial = ordered.lastWritten initial := by
  unfold lastWritten
  rw [written, dequeued]
  cases last : ordered.written.getLast? with
  | none => rfl
  | some n =>
      obtain ⟨block, found, _⟩ := held.proposed n (List.mem_of_getLast? last)
      simp only [found, getElem?_append_of_some found]

/-- An iteration that saves nothing. -/
theorem Ordered.waits (held : ordered.Ordered cliArgs initial) {loop after : CheckpointLoop}
    (running : ordered.world.loop = some loop) {input : CheckpointInput} {next : OrderedWorld}
    (world : next.world = ⟨ordered.world.db, some after⟩)
    (dequeued : next.dequeued = ordered.dequeued ++ input.popped.toList)
    (candidateAt : next.candidateAt = ordered.receivedAt loop (loop.receive cliArgs input))
    (written : next.written = ordered.written)
    (lastAttempt : next.lastAttempt = ordered.lastAttempt)
    (sameCandidate : after.checkpointCandidate =
      (loop.receive cliArgs input).checkpointCandidate)
    (sameSaved : after.checkpointLastSaved = (loop.receive cliArgs input).checkpointLastSaved) :
    next.Ordered cliArgs initial := by
  constructor
  · rw [written]
    exact held.increasing
  · intro n isWritten
    rw [written] at isWritten
    obtain ⟨block, found, proposes⟩ := held.proposed n isWritten
    rw [dequeued]
    exact ⟨block, getElem?_append_of_some found, proposes⟩
  · rw [held.lastWritten_append _ dequeued written, world]
    exact held.persisted
  · intro _ isLoop
    rw [world] at isLoop
    cases isLoop
    rw [sameSaved, (loop.receive_candidate_cases cliArgs input).1, lastAttempt]
    exact held.saved loop running
  · intro _ block isLoop isCandidate
    rw [world] at isLoop
    cases isLoop
    rw [sameCandidate] at isCandidate
    rw [candidateAt, dequeued, written]
    exact held.receive running input isCandidate

/-- An iteration that tries to save the candidate. -/
theorem Ordered.saves (held : ordered.Ordered cliArgs initial) {loop ready : CheckpointLoop}
    (running : ordered.world.loop = some loop) {input : CheckpointInput}
    {checkpoint : CheckpointBlock}
    (isCandidate : (loop.receive cliArgs input).checkpointCandidate = some checkpoint)
    {hashOrder : Reordering (String × Int)} {script : Script} :
    OrderedWorld.Ordered cliArgs initial
      { world := .ofExec (Session.run (ready.save hashOrder checkpoint input.recordNow)
          ordered.world.db script)
        dequeued := ordered.dequeued ++ input.popped.toList
        candidateAt := none
        written :=
          if ready.writes hashOrder checkpoint ordered.world.db script then
            ordered.written ++ (ordered.receivedAt loop (loop.receive cliArgs input)).toList
          else
            ordered.written
        lastAttempt := input.recordNow } := by
  obtain ⟨n, candidateAt, found, proposes, newer⟩ := held.receive running input isCandidate
  have earlier : ∀ m ∈ ordered.written, ∃ block,
      (ordered.dequeued ++ input.popped.toList)[m]? = some block ∧ block.Proposes cliArgs := by
    intro m isWritten
    obtain ⟨block, found, proposes⟩ := held.proposed m isWritten
    exact ⟨block, getElem?_append_of_some found, proposes⟩
  have survivor : ∀ after : CheckpointLoop, (CheckpointWorld.ofExec (Session.run
      (ready.save hashOrder checkpoint input.recordNow) ordered.world.db script)).loop =
        some after → after.checkpointLastSaved = input.recordNow ∧
          after.checkpointCandidate = none := by
    intro after survives
    obtain ⟨previous, rfl⟩ := CheckpointLoop.loop_ofExec_save survives
    exact ⟨rfl, rfl⟩
  have idle : ∀ (after : CheckpointLoop) (block : CheckpointBlock), (CheckpointWorld.ofExec
      (Session.run (ready.save hashOrder checkpoint input.recordNow) ordered.world.db
        script)).loop = some after → after.checkpointCandidate = some block → False := by
    intro after block survives isBlock
    rw [(survivor after survives).2] at isBlock
    contradiction
  have persisted :=
    ready.persisted_save hashOrder checkpoint input.recordNow ordered.world.db script
  rw [candidateAt, Option.toList_some]
  cases writes : ready.writes hashOrder checkpoint ordered.world.db script with
  | true =>
      rw [writes, if_pos rfl] at persisted
      constructor
      · simp only [if_true]
        refine List.pairwise_append.mpr ⟨held.increasing, List.pairwise_singleton _ _, ?_⟩
        intro m isWritten last isLast
        rw [List.mem_singleton.mp isLast]
        exact newer m isWritten
      · simp only [if_true]
        intro m isWritten
        rcases List.mem_append.mp isWritten with old | isLast
        · exact earlier m old
        · rw [List.mem_singleton.mp isLast]
          exact ⟨checkpoint, found, proposes⟩
      · rw [persisted]
        simp only [lastWritten, if_true, List.getLast?_concat, found, Option.map_some]
      · exact fun after survives => (survivor after survives).1
      · exact fun after block survives isBlock => (idle after block survives isBlock).elim
  | false =>
      rw [writes, if_neg Bool.false_ne_true] at persisted
      constructor
      · exact held.increasing
      · exact earlier
      · rw [persisted, held.persisted]
        refine Eq.symm (held.lastWritten_append input.popped.toList ?_ ?_)
        · rfl
        · rfl
      · exact fun after survives => (survivor after survives).1
      · exact fun after block survives isBlock => (idle after block survives isBlock).elim

/-- The step lemma. -/
theorem Ordered.step (held : ordered.Ordered cliArgs initial) (event : OrderedEvent) :
    (ordered.step cliArgs event).Ordered cliArgs initial := by
  cases event with
  | iteration input hashOrder script =>
      simp only [OrderedWorld.step]
      cases running : ordered.world.loop with
      | none => exact held
      | some loop =>
          simp only [CheckpointWorld.step, running, CheckpointLoop.iterate]
          cases decision : (loop.receive cliArgs input).evaluate cliArgs input with
          | idle => exact held.waits running rfl rfl rfl rfl rfl rfl rfl
          | wait waiting =>
              obtain ⟨sameCandidate, sameSaved⟩ := CheckpointLoop.eq_of_evaluate_eq_wait decision
              exact held.waits running rfl rfl rfl rfl rfl sameCandidate sameSaved
          | save checkpoint force ready =>
              exact held.saves running (CheckpointLoop.candidate_of_evaluate_eq_save decision)
  | other change =>
      refine ⟨held.increasing, held.proposed, ?_, held.saved, held.candidate⟩
      exact (persistedCheckpoint_congr rfl).trans held.persisted

theorem ordered_start (cliArgs : CliArgs) (db : Db) (now : ℕ)
    (previousCheckpoint : Option String) :
    (start db now previousCheckpoint).Ordered cliArgs db.persistedCheckpoint where
  increasing := List.Pairwise.nil
  proposed _ isWritten := absurd isWritten List.not_mem_nil
  persisted := rfl
  saved := by
    rintro _ ⟨⟩
    rfl
  candidate := by
    rintro _ block ⟨⟩ isCandidate
    contradiction

/-- Neither what was dequeued nor what was written is ever taken back. -/
structure Extends (ordered later : OrderedWorld) : Prop where
  dequeued : ordered.dequeued <+: later.dequeued
  written : ordered.written <+: later.written

theorem extends_step (cliArgs : CliArgs) (ordered : OrderedWorld) (event : OrderedEvent) :
    ordered.Extends (ordered.step cliArgs event) := by
  have unchanged : ordered.Extends ordered := ⟨List.prefix_rfl, List.prefix_rfl⟩
  cases event with
  | iteration input hashOrder script =>
      simp only [step]
      cases ordered.world.loop with
      | none => exact unchanged
      | some loop =>
          simp only
          cases (loop.receive cliArgs input).evaluate cliArgs input with
          | idle => exact ⟨List.prefix_append _ _, List.prefix_rfl⟩
          | wait waiting => exact ⟨List.prefix_append _ _, List.prefix_rfl⟩
          | save checkpoint force ready =>
              refine ⟨List.prefix_append _ _, ?_⟩
              simp only
              split_ifs
              · exact List.prefix_append _ _
              · exact List.prefix_rfl
  | other change => exact ⟨List.prefix_rfl, List.prefix_rfl⟩

theorem extends_run (cliArgs : CliArgs) (ordered : OrderedWorld) (more : List OrderedEvent) :
    ordered.Extends (runFrom (step cliArgs) ordered more) := by
  refine @invariant_of_run _ _ _ (Extends ordered) (fun middle event reached => ?_) _ more
    ⟨List.prefix_rfl, List.prefix_rfl⟩
  have next := extends_step cliArgs middle event
  exact ⟨reached.dequeued.trans next.dequeued, reached.written.trans next.written⟩

/-- The checkpoints written are a subsequence of the notifications. -/
structure SavesInOrder (cliArgs : CliArgs) (initial : Option String) (ordered : OrderedWorld) :
    Prop where
  /-- In the order in which they were dequeued, and none twice. -/
  increasing : ordered.written.Pairwise (· < ·)
  fromChain : cliArgs.isDisabled .virtualChainProcessing = false → ∀ n ∈ ordered.written,
    ∃ block, ordered.dequeued[n]? = some block ∧ block.origin = .vcp
  /-- Without the virtual chain processor nothing else pushes its notifications. -/
  fromBlocks : cliArgs.isDisabled .virtualChainProcessing = true →
    (∀ block ∈ ordered.dequeued, block.origin ≠ .vcp) → ∀ n ∈ ordered.written,
      ∃ block, ordered.dequeued[n]? = some block ∧ block.origin = .blocks
  /-- A candidate is taken only when there is none, and long enough after the last attempt. -/
  adopts : ∀ loop input, ordered.world.loop = some loop →
    (loop.receive cliArgs input).checkpointCandidate ≠ loop.checkpointCandidate →
      loop.checkpointCandidate = none ∧
        checkpointSaveInterval < secondsSince ordered.lastAttempt input.adoptNow
  persisted : ordered.world.db.persistedCheckpoint = ordered.lastWritten initial

theorem Ordered.savesInOrder (held : ordered.Ordered cliArgs initial) :
    ordered.SavesInOrder cliArgs initial where
  increasing := held.increasing
  fromChain enabled n isWritten := by
    obtain ⟨block, found, isChain | ⟨_, disabled⟩⟩ := held.proposed n isWritten
    · exact ⟨block, found, isChain⟩
    · rw [enabled] at disabled
      contradiction
  fromBlocks _ noChain n isWritten := by
    obtain ⟨block, found, isChain | ⟨isBlock, _⟩⟩ := held.proposed n isWritten
    · exact absurd isChain (noChain block (List.mem_of_getElem? found))
    · exact ⟨block, found, isBlock⟩
  adopts loop input running changed := by
    obtain ⟨_, same | ⟨_, _, _, adopts, _⟩⟩ := loop.receive_candidate_cases cliArgs input
    · exact absurd same changed
    · rw [← held.saved loop running]
      exact adopts
  persisted := held.persisted

/-- In every run the checkpoints are saved in the order of their notifications, and the
checkpoint persisted never goes back to an earlier one. -/
theorem savesInOrder_of_run (cliArgs : CliArgs) (db : Db) (now : ℕ)
    (previousCheckpoint : Option String) (events more : List OrderedEvent) :
    (runFrom (step cliArgs) (start db now previousCheckpoint) events).SavesInOrder cliArgs
        db.persistedCheckpoint ∧
      (runFrom (step cliArgs) (start db now previousCheckpoint) events).Extends
        (runFrom (step cliArgs) (start db now previousCheckpoint) (events ++ more)) ∧
      ∀ n, (runFrom (step cliArgs) (start db now previousCheckpoint) events).written.getLast? =
          some n →
        ∃ m, (runFrom (step cliArgs) (start db now previousCheckpoint)
            (events ++ more)).written.getLast? = some m ∧ n ≤ m := by
  have held : ∀ inputs, (runFrom (step cliArgs) (start db now previousCheckpoint) inputs).Ordered
      cliArgs db.persistedCheckpoint := fun inputs =>
    @invariant_of_run _ _ _ (Ordered cliArgs db.persistedCheckpoint)
      (fun _ event held => held.step event) _ inputs (ordered_start cliArgs db now _)
  have reaches := extends_run cliArgs
    (runFrom (step cliArgs) (start db now previousCheckpoint) events) more
  rw [← runFrom_append] at reaches
  refine ⟨(held events).savesInOrder, reaches, fun n isLast => ?_⟩
  obtain ⟨rest, written⟩ := reaches.written
  have increasing := (held (events ++ more)).increasing
  rw [← written] at increasing ⊢
  rcases List.eq_nil_or_concat rest with rfl | ⟨middle, m, rfl⟩
  · rw [List.append_nil]
    exact ⟨n, isLast, le_rfl⟩
  · refine ⟨m, by simp, ?_⟩
    have newer := (List.pairwise_append.mp increasing).2.2 n (List.mem_of_getLast? isLast) m
      (by simp)
    exact newer.le

/-- An iteration at some second. -/
def iterationAt (seconds : ℕ) (popped : Option CheckpointBlock) : OrderedEvent :=
  .iteration ⟨popped, seconds * 1000000000, seconds * 1000000000, seconds * 1000000000,
    seconds * 1000000000⟩ .listed fun _ => .succeeds

/-- The second notification becomes the candidate, and is saved by force. -/
example : (runFrom (step .standard) (start .empty 0 none)
    [iterationAt 5 (some ⟨.vcp, 1, 0, 0, 0⟩), iterationAt 31 (some ⟨.vcp, 2, 0, 0, 0⟩),
      iterationAt 32 (some ⟨.vcp, 3, 0, 0, 0⟩), iterationAt 121 none]).written = [1] := by
  decide +kernel

end OrderedWorld

end VecnoIndexer
