import VecnoIndexer.System.Frames
import VecnoIndexer.System.World

/-!
# What a step of the system can do

A step ends the process, or it is a signal, a turn of the fetcher, or a turn of one of the
four processors that `Task.turn` describes.  Whatever it is, it retains what is indexed.
-/

namespace VecnoIndexer

open VecnoIndexer.Sql
open VecnoIndexer.Collections
open VecnoIndexer.Transition

/-! ## One turn of a processor -/

namespace Task

variable {Loop : Type} {task next : Task Loop} {shutdown : Bool}
  {queue left : ArrayQueue CheckpointBlock} {start : Option Loop}
  {iterate : Loop → Option (Loop × List CheckpointBlock)}

@[simp]
theorem unsent_after (loop : Loop) (pushed : List CheckpointBlock) :
    (after loop pushed).unsent = pushed := by
  cases pushed <;> rfl

@[simp]
theorem locals_after (loop : Loop) (pushed : List CheckpointBlock) :
    (after loop pushed).locals = some loop := by
  cases pushed <;> rfl

/-! A task that starts or tests its loop. -/

section Turn

variable {α : Type} (loop : Loop) (items : ArrayQueue α) (db initial : Db) (iterates : Loop → Db)

@[simp]
theorem taken_starting : (starting : Task Loop).taken shutdown items = [] :=
  rfl

@[simp]
theorem taken_looping_of_down : (looping loop).taken true items = [] :=
  rfl

@[simp]
theorem taken_looping_of_up : (looping loop).taken false items = items.pop.1.toList :=
  rfl

@[simp]
theorem issued_starting : (starting : Task Loop).issued next = next.unsent :=
  rfl

@[simp]
theorem issued_looping : (looping loop).issued next = next.unsent :=
  rfl

@[simp]
theorem unsent_looping : (looping loop).unsent = [] :=
  rfl

@[simp]
theorem unsent_returned : (returned : Task Loop).unsent = [] :=
  rfl

@[simp]
theorem leaves_starting : starting.leaves shutdown db initial iterates = initial :=
  rfl

@[simp]
theorem leaves_looping_of_down : (looping loop).leaves true db initial iterates = db :=
  rfl

@[simp]
theorem leaves_looping_of_up : (looping loop).leaves false db initial iterates = iterates loop :=
  rfl

end Turn

/-- What a turn that does not panic can do. -/
inductive Turned (shutdown : Bool) (queue : ArrayQueue CheckpointBlock) (start : Option Loop)
    (iterate : Loop → Option (Loop × List CheckpointBlock)) :
    Task Loop → Task Loop → ArrayQueue CheckpointBlock → Prop where
  | rests {task : Task Loop} (stopped : task.runs = false) :
      Turned shutdown queue start iterate task task queue
  | starts {loop : Loop} (started : start = some loop) :
      Turned shutdown queue start iterate .starting (.looping loop) queue
  | stops {loop : Loop} (down : shutdown = true) :
      Turned shutdown queue start iterate (.looping loop) .returned queue
  | iterates {loop final : Loop} {pushed : List CheckpointBlock} (up : shutdown = false)
      (iterated : iterate loop = some (final, pushed)) :
      Turned shutdown queue start iterate (.looping loop) (.after final pushed) queue
  | pushes {loop : Loop} {block : CheckpointBlock} {rest : List CheckpointBlock}
      {longer : ArrayQueue CheckpointBlock} (pushed : queue.push block = some longer) :
      Turned shutdown queue start iterate (.pushing loop block rest) (.after loop rest) longer
  | waits {loop : Loop} {block : CheckpointBlock} {rest : List CheckpointBlock}
      (full : queue.push block = none) :
      Turned shutdown queue start iterate (.pushing loop block rest) (.pushing loop block rest)
        queue

theorem turned_of_turn (turned : task.turn shutdown queue start iterate = some (next, left)) :
    Turned shutdown queue start iterate task next left := by
  cases task with
  | absent =>
      cases turned
      exact .rests rfl
  | returned =>
      cases turned
      exact .rests rfl
  | starting =>
      obtain ⟨loop, started, eq⟩ := Option.map_eq_some_iff.mp turned
      cases eq
      exact .starts started
  | looping loop =>
      cases shutdown with
      | true =>
          cases turned
          exact .stops rfl
      | false =>
          simp only [turn, Bool.false_eq_true, if_false] at turned
          obtain ⟨⟨final, pushed⟩, iterated, eq⟩ := Option.map_eq_some_iff.mp turned
          cases eq
          exact .iterates rfl iterated
  | pushing loop block rest =>
      simp only [turn] at turned
      split at turned
      · rename_i longer pushed
        cases turned
        exact .pushes pushed
      · rename_i full
        cases turned
        exact .waits full

/-- A turn that does not move the loop. -/
structure Quiet (shutdown : Bool) (task next : Task Loop) : Prop where
  locals : next.locals = task.locals
  taken : ∀ {α : Type} (queue : ArrayQueue α), task.taken shutdown queue = []
  issued : task.issued next = []
  leaves : ∀ (db start : Db) (iterate : Loop → Db), task.leaves shutdown db start iterate = db

/-- Seen from its loop, a task does nothing in a turn, or it starts, stops or iterates. -/
theorem Turned.effect (turned : Turned shutdown queue start iterate task next left) :
    Quiet shutdown task next ∨
    (task = .starting ∧ ∃ loop, start = some loop ∧ next = .looping loop) ∨
    (shutdown = true ∧ ∃ loop, task = .looping loop ∧ next = .returned) ∨
    (shutdown = false ∧ ∃ loop final pushed, task = .looping loop ∧
      iterate loop = some (final, pushed) ∧ next = .after final pushed) := by
  cases turned with
  | rests stopped =>
      left
      cases task with
      | absent => exact ⟨rfl, fun _ => rfl, rfl, fun _ _ _ => rfl⟩
      | returned => exact ⟨rfl, fun _ => rfl, rfl, fun _ _ _ => rfl⟩
      | _ => contradiction
  | starts started => exact Or.inr (Or.inl ⟨rfl, _, started, rfl⟩)
  | stops down => exact Or.inr (Or.inr (Or.inl ⟨down, _, rfl, rfl⟩))
  | iterates up iterated => exact Or.inr (Or.inr (Or.inr ⟨up, _, _, _, rfl, iterated, rfl⟩))
  | pushes pushed => exact Or.inl ⟨locals_after _ _, fun _ => rfl, rfl, fun _ _ _ => rfl⟩
  | waits full => exact Or.inl ⟨rfl, fun _ => rfl, rfl, fun _ _ _ => rfl⟩

theorem Turned.eq_starting (turned : Turned shutdown queue start iterate task next left)
    (idle : task.locals = none) (runs : next.locals ≠ none) : task = .starting := by
  rcases turned.effect with
    quiet | ⟨starting, _⟩ | ⟨_, loop, looping, _⟩ | ⟨_, loop, _, _, looping, _⟩
  · exact absurd (quiet.locals.trans idle) runs
  · exact starting
  · rw [looping] at idle
    contradiction
  · rw [looping] at idle
    contradiction

/-- A task starts once. -/
theorem Turned.ne_starting (turned : Turned shutdown queue start iterate task next left) :
    next ≠ .starting := by
  intro isStarting
  have noLoop : next.locals = none := congrArg locals isStarting
  cases turned with
  | rests stopped =>
      rw [isStarting] at stopped
      contradiction
  | starts _ => contradiction
  | stops _ => contradiction
  | iterates _ _ =>
      rw [locals_after] at noLoop
      contradiction
  | pushes _ =>
      rw [locals_after] at noLoop
      contradiction
  | waits _ => contradiction

/-- A turn pushes the first of what is to be pushed, and an iteration adds to it. -/
theorem Turned.conserves (turned : Turned shutdown queue start iterate task next left) :
    left.items = queue.items ++ task.sent next ∧
      task.unsent ++ task.issued next = task.sent next ++ next.unsent := by
  cases turned with
  | rests stopped =>
      cases task <;> simp_all [sent, issued, unsent, isPushing, runs]
  | starts started => simp [sent, issued, unsent, isPushing]
  | stops down => simp [sent, issued, unsent, isPushing]
  | iterates up iterated =>
      simp only [sent, issued, isPushing, unsent_after]
      simp [unsent]
  | pushes pushed =>
      obtain ⟨_, items⟩ := ArrayQueue.push_eq_some pushed
      simp only [sent, issued, isPushing, unsent_after]
      simp [unsent, items]
  | waits full => simp [sent, issued, unsent, isPushing]

/-- Nothing is pushed that was not to be pushed. -/
theorem subset_unsent_of_mem_sent {block : CheckpointBlock} (isSent : block ∈ task.sent next) :
    block ∈ task.unsent :=
  List.mem_of_mem_take isSent

end Task

/-! ## A step -/

namespace System

variable (settings : Settings) (system : System)

def blockTurn (input : BlockInput) (script : Script) :
    Option (Task BlockLoop × ArrayQueue CheckpointBlock) :=
  system.tasks.blockProcessor.turn system.tasks.shutdown system.tasks.checkpointQueue
    (some (.start input.now)) fun loop =>
      returnedValue (Session.run (loop.iterate settings
        { input with popped := system.tasks.blocksQueue.pop.1 }) system.db script)

def transactionTurn (input : TransactionsInput) (script : Script) :
    Option (Task TransactionLoop × ArrayQueue CheckpointBlock) :=
  system.tasks.transactionProcessor.turn system.tasks.shutdown system.tasks.checkpointQueue
    (returnedValue (Session.run (TransactionLoop.start input.now) system.db script)) fun loop =>
      returnedValue (Session.run (loop.iterate settings.cliArgs
        { input with popped := system.tasks.txsQueue.pop.1 }) system.db script)

def virtualChainTurn (input : VcpInput) (script : Script) :
    Option (Task VcpState × ArrayQueue CheckpointBlock) :=
  system.tasks.virtualChainProcessor.turn system.tasks.shutdown system.tasks.checkpointQueue
    (some (.start settings)) fun vcp =>
      if system.tasks.startVcp then
        (returnedValue (Session.run (pollVirtualChain settings.cliArgs vcp
          { input with shutdown := false }) system.db script)).map fun result =>
            (result.1, result.2.toList)
      else
        some (vcp, [])

def checkpointTurn (input : CheckpointInput) (hashOrder : Reordering (String × Int))
    (script : Script) : Option (Task CheckpointLoop × ArrayQueue CheckpointBlock) :=
  system.tasks.checkpointProcessor.turn system.tasks.shutdown system.tasks.checkpointQueue.pop.2
    (some (.start input.adoptNow system.tasks.previousCheckpoint)) fun loop =>
      (returnedValue (Session.run (system.checkpointSession settings input hashOrder loop) system.db
        script)).map fun after => (after, [])

/-- After a turn of the block processor. -/
def afterBlocks (db : Db) (next : Task BlockLoop) (left : ArrayQueue CheckpointBlock) : System where
  tasks := { system.tasks with
    blockProcessor := next
    checkpointQueue := left
    blocksQueue :=
      if system.tasks.blockProcessor.iterates system.tasks.shutdown then
        system.tasks.blocksQueue.pop.2
      else system.tasks.blocksQueue
    startVcp := system.tasks.startVcp || next.locals.any BlockLoop.vcpStarted }
  db
  log := { system.log with
    poppedBlocks := system.log.poppedBlocks ++
      system.tasks.blockProcessor.taken system.tasks.shutdown system.tasks.blocksQueue
    blocksNotified := system.log.blocksNotified ++
      (system.tasks.blockProcessor.issued next).map (⟨·, db⟩)
    pushed := system.log.pushed ++ system.tasks.blockProcessor.sent next }

def afterTransactions (db : Db) (next : Task TransactionLoop)
    (left : ArrayQueue CheckpointBlock) : System where
  tasks := { system.tasks with
    transactionProcessor := next
    checkpointQueue := left
    txsQueue :=
      if system.tasks.transactionProcessor.iterates system.tasks.shutdown then
        system.tasks.txsQueue.pop.2
      else system.tasks.txsQueue }
  db
  log := { system.log with
    poppedTransactions := system.log.poppedTransactions ++
      system.tasks.transactionProcessor.taken system.tasks.shutdown system.tasks.txsQueue
    transactionsNotified := system.log.transactionsNotified ++
      (system.tasks.transactionProcessor.issued next).map (⟨·, db⟩)
    pushed := system.log.pushed ++ system.tasks.transactionProcessor.sent next }

def afterVirtualChain (db : Db) (next : Task VcpState) (left : ArrayQueue CheckpointBlock) :
    System where
  tasks := { system.tasks with
    virtualChainProcessor := next
    checkpointQueue := left }
  db
  log := { system.log with
    chainNotified := system.log.chainNotified ++ system.tasks.virtualChainProcessor.issued next
    pushed := system.log.pushed ++ system.tasks.virtualChainProcessor.sent next }

def afterCheckpoints (db : Db) (next : Task CheckpointLoop) : System where
  tasks := { system.tasks with
    checkpointProcessor := next
    checkpointQueue :=
      if system.tasks.checkpointProcessor.iterates system.tasks.shutdown then
        system.tasks.checkpointQueue.pop.2
      else system.tasks.checkpointQueue }
  db
  log := { system.log with
    dequeued := system.log.dequeued ++
      system.tasks.checkpointProcessor.taken system.tasks.shutdown system.tasks.checkpointQueue }

def afterFetch (input : FetchInput) : System where
  tasks := system.tasks.fetch input
  db := system.db
  log := { system.log with
    fetched :=
      if system.tasks.shutdown then system.log.fetched
      else (system.tasks.fetch input).fetcher.getD system.log.fetched }

variable {system}

/-! The statements of a turn of the other tasks write none of the processors' tables. -/

theorem sameIndexed_of_virtualChain (input : VcpInput) (script : Script) :
    SameIndexed system.db (system.dbAfter settings (.virtualChain input script)) := by
  have unchanged := SameIndexed.refl system.db
  simp only [dbAfter]
  cases system.tasks.virtualChainProcessor with
  | looping vcp =>
      simp only [Task.leaves, virtualChainSession]
      split
      · exact unchanged
      · split
        · exact sameIndexed_virtualChain _ _ _ _ _
        · exact unchanged
  | _ => exact unchanged

theorem sameIndexed_of_checkpoints (input : CheckpointInput)
    (hashOrder : Reordering (String × Int)) (script : Script) :
    SameIndexed system.db (system.dbAfter settings (.checkpoints input hashOrder script)) := by
  have unchanged := SameIndexed.refl system.db
  simp only [dbAfter]
  cases system.tasks.checkpointProcessor with
  | looping loop =>
      simp only [Task.leaves, checkpointSession]
      split
      · exact unchanged
      · exact sameIndexed_checkpoints _ _ _ _ _ _
  | _ => exact unchanged

/-- A turn keeps what its statements keep. -/
theorem property_dbAfter {property : Db → Prop} (frame : WriteFrame property)
    (holds : property system.db) (event : SystemEvent) :
    property (system.dbAfter settings event) := by
  cases event with
  | signal => exact holds
  | fetch input => exact holds
  | blocks input script =>
      simp only [dbAfter]
      cases system.tasks.blockProcessor with
      | looping loop =>
          simp only [Task.leaves]
          split
          · exact holds
          · exact loop.keeps_tables frame.blocks frame.blockParent frame.acceptances settings _ _ _
              holds
      | _ => exact holds
  | transactions input script =>
      simp only [dbAfter]
      cases system.tasks.transactionProcessor with
      | looping loop =>
          simp only [Task.leaves]
          split
          · exact holds
          · exact loop.keeps_leaves frame.leaves frame.numbering settings.cliArgs _ _ _ holds
      | starting =>
          simp only [Task.leaves, state_transactionLoop_start]
          exact holds
      | _ => exact holds
  | virtualChain input script =>
      simp only [dbAfter]
      cases system.tasks.virtualChainProcessor with
      | looping vcp =>
          simp only [Task.leaves, virtualChainSession]
          split
          · exact holds
          · split
            · exact keeps_pollVirtualChain frame.acceptances settings.cliArgs vcp _ _ _ holds
            · exact holds
      | _ => exact holds
  | checkpoints input hashOrder script =>
      simp only [dbAfter]
      cases system.tasks.checkpointProcessor with
      | looping loop =>
          simp only [Task.leaves, checkpointSession]
          split
          · exact holds
          · exact CheckpointLoop.keeps_iterate frame.balances frame.checkpoint settings.cliArgs
              hashOrder loop _ _ _ holds
      | _ => exact holds

/-- What a step can do. -/
inductive Stepped (system : System) : SystemEvent → System → Prop where
  | idle {event : SystemEvent} (ended : system.tasks.ended = true) : Stepped system event system
  | dies {tasks : TaskWorld} {event : SystemEvent} (ended : tasks.ended = true) :
      Stepped system event { system with tasks, db := system.dbAfter settings event }
  | signal (alive : system.tasks.ended = false) :
      Stepped system .signal { system with tasks := { system.tasks with shutdown := true } }
  | fetch (alive : system.tasks.ended = false) (input : FetchInput)
      (lives : (system.tasks.fetch input).ended = false) :
      Stepped system (.fetch input) (system.afterFetch input)
  | blocks (alive : system.tasks.ended = false) {input : BlockInput} {script : Script}
      {next : Task BlockLoop} {left : ArrayQueue CheckpointBlock}
      (turned : system.blockTurn settings input script = some (next, left)) :
      Stepped system (.blocks input script)
        (system.afterBlocks (system.dbAfter settings (.blocks input script)) next left)
  | transactions (alive : system.tasks.ended = false) {input : TransactionsInput}
      {script : Script} {next : Task TransactionLoop} {left : ArrayQueue CheckpointBlock}
      (turned : system.transactionTurn settings input script = some (next, left)) :
      Stepped system (.transactions input script)
        (system.afterTransactions (system.dbAfter settings (.transactions input script)) next left)
  | virtualChain (alive : system.tasks.ended = false) {input : VcpInput} {script : Script}
      {next : Task VcpState} {left : ArrayQueue CheckpointBlock}
      (turned : system.virtualChainTurn settings input script = some (next, left)) :
      Stepped system (.virtualChain input script)
        (system.afterVirtualChain (system.dbAfter settings (.virtualChain input script)) next left)
  | checkpoints (alive : system.tasks.ended = false) {input : CheckpointInput}
      {hashOrder : Reordering (String × Int)} {script : Script} {next : Task CheckpointLoop}
      {left : ArrayQueue CheckpointBlock}
      (turned : system.checkpointTurn settings input hashOrder script = some (next, left)) :
      Stepped system (.checkpoints input hashOrder script)
        (system.afterCheckpoints (system.dbAfter settings (.checkpoints input hashOrder script))
          next)

theorem Stepped.retains {system next : System} {event : SystemEvent}
    (stepped : Stepped settings system event next) : Retains system.db next.db := by
  have retains : Retains system.db (system.dbAfter settings event) :=
    property_dbAfter settings (writeFrame_retains system.db) (.refl _) event
  cases stepped with
  | idle _ => exact .refl _
  | signal _ => exact .refl _
  | fetch _ _ _ => exact .refl _
  | _ => exact retains

theorem stepped (system : System) (event : SystemEvent) :
    Stepped settings system event (system.step settings event) := by
  unfold step
  split
  · rename_i ended
    exact .idle ended
  · rename_i lives
    have alive := Bool.eq_false_of_not_eq_true lives
    simp only
    split
    · rename_i ended
      exact .dies ended
    · rename_i survives
      cases event with
      | signal =>
          have executed : system.tasks.step settings (SystemEvent.on system.db .signal) =
              system.tasks.signal :=
            if_neg lives
          rw [executed] at survives ⊢
          unfold TaskWorld.signal at survives ⊢
          split at survives
          · exact absurd rfl survives
          · rename_i up
            rw [if_neg up]
            exact .signal alive
      | fetch input =>
          have executed : system.tasks.step settings (SystemEvent.on system.db (.fetch input)) =
              system.tasks.fetch input :=
            if_neg lives
          rw [executed] at survives ⊢
          exact .fetch alive input (Bool.eq_false_of_not_eq_true survives)
      | blocks input script =>
          have executed : system.tasks.step settings
              (SystemEvent.on system.db (.blocks input script)) =
              system.tasks.processBlocks settings input system.db script :=
            if_neg lives
          rw [executed] at survives ⊢
          unfold TaskWorld.processBlocks at survives ⊢
          cases turned : system.blockTurn settings input script with
          | none =>
              simp only [blockTurn] at turned
              simp only [turned, not_true_eq_false] at survives
          | some result =>
              have stepped := Stepped.blocks alive turned
              simp only [blockTurn] at turned
              simp only [turned]
              exact stepped
      | transactions input script =>
          have executed : system.tasks.step settings
              (SystemEvent.on system.db (.transactions input script)) =
              system.tasks.processTransactions settings input system.db script :=
            if_neg lives
          rw [executed] at survives ⊢
          unfold TaskWorld.processTransactions at survives ⊢
          cases turned : system.transactionTurn settings input script with
          | none =>
              simp only [transactionTurn] at turned
              simp only [turned, not_true_eq_false] at survives
          | some result =>
              have stepped := Stepped.transactions alive turned
              simp only [transactionTurn] at turned
              simp only [turned]
              exact stepped
      | virtualChain input script =>
          have executed : system.tasks.step settings
              (SystemEvent.on system.db (.virtualChain input script)) =
              system.tasks.processVirtualChain settings input system.db script :=
            if_neg lives
          rw [executed] at survives ⊢
          unfold TaskWorld.processVirtualChain at survives ⊢
          cases turned : system.virtualChainTurn settings input script with
          | none =>
              simp only [virtualChainTurn] at turned
              simp only [turned, not_true_eq_false] at survives
          | some result =>
              have stepped := Stepped.virtualChain alive turned
              simp only [virtualChainTurn] at turned
              simp only [turned]
              exact stepped
      | checkpoints input hashOrder script =>
          have executed : system.tasks.step settings
              (SystemEvent.on system.db (.checkpoints input hashOrder script)) =
              system.tasks.processCheckpoints settings input hashOrder system.db script :=
            if_neg lives
          rw [executed] at survives ⊢
          unfold TaskWorld.processCheckpoints at survives ⊢
          cases turned : system.checkpointTurn settings input hashOrder script with
          | none =>
              simp only [checkpointTurn, checkpointSession] at turned
              simp only [turned, not_true_eq_false] at survives
          | some result =>
              have stepped := Stepped.checkpoints alive turned
              simp only [checkpointTurn, checkpointSession] at turned
              simp only [turned]
              exact stepped

end System

end VecnoIndexer
