import VecnoIndexer.Blocks.ProcessBlocks
import VecnoIndexer.Collections.Firsts
import VecnoIndexer.Transition.Run

/-!
# The block fetcher

`VecnoBlocksFetcher` asks for the blocks after `low_hash` and hands each one to both
queues, unless its cache says that it did so before.  A step of the machine here is a
poll, the test of one block, or one attempt to push; a full queue is tried again.
-/

namespace VecnoIndexer

open VecnoIndexer.Collections
open VecnoIndexer.Transition

/-- An element of `txs_queue`. -/
structure TransactionData where
  transactions : List RpcTransaction
  blockHash : Hash
  blockTimestamp : UInt64
  blockDaaScore : UInt64
  blockBlueScore : UInt64
  deriving DecidableEq, Repr

/-- Where the fetcher is. -/
inductive FetchTask where
  /-- It is about to ask for blocks. -/
  | polling
  /-- It is in `handle_blocks`, with some blocks left and the hash of the last one seen. -/
  | handling (rest : List RpcBlock) (blockHash : Hash)
  | pushingBlock (block : RpcBlock) (rest : List RpcBlock)
  | pushingTransactions (block : RpcBlock) (rest : List RpcBlock)
  /-- It has panicked after a response. -/
  | dead
  deriving DecidableEq, Repr

/-- What a step meets. Entries of the cache may be lost before any step. -/
structure FetchInput where
  /-- The blocks received, or nothing after an error. -/
  response : Option (List RpcBlock)
  /-- The tips received, if the sync check was due and answered. -/
  tipHashes : Option (List Hash)
  /-- The timestamp of the last block can be formatted. -/
  timestampValid : Bool
  forgotten : Hash → Bool
  full : Bool
  refused : Bool

/-- The fetcher, what it has pushed, and the responses it has handled and handles. -/
structure VecnoBlocksFetcher where
  lowHash : Hash
  synced : Bool
  tipHashes : List Hash
  blockCache : List Hash
  task : FetchTask
  blocksPushed : List BlockData
  txsPushed : List TransactionData
  handled : List (List RpcBlock)
  current : List RpcBlock

namespace VecnoBlocksFetcher

/-- The fetcher before its first poll. -/
def new (checkpoint : Hash) : VecnoBlocksFetcher where
  lowHash := checkpoint
  synced := false
  tipHashes := []
  blockCache := []
  task := .polling
  blocksPushed := []
  txsPushed := []
  handled := []
  current := []

def blockData (synced : Bool) (block : RpcBlock) : BlockData where
  block := { block with transactions := [] }
  synced

def transactionData (block : RpcBlock) : TransactionData where
  transactions := block.transactions
  blockHash := block.header.hash
  blockTimestamp := block.header.timestamp
  blockDaaScore := block.header.daaScore
  blockBlueScore := block.header.blueScore

/-- `start`, from a response on. Only more than one block is handled. -/
def receive (fetcher : VecnoBlocksFetcher) (input : FetchInput) (blocks : List RpcBlock) :
    VecnoBlocksFetcher :=
  let tipHashes :=
    if !fetcher.synced && blocks.length < 100 then input.tipHashes.getD fetcher.tipHashes
    else fetcher.tipHashes
  if 1 < blocks.length then
    { fetcher with tipHashes, task := .handling blocks fetcher.lowHash, current := blocks }
  else
    { fetcher with tipHashes }

/-- The end of `handle_blocks`, and the metrics of the last block. -/
def finish (fetcher : VecnoBlocksFetcher) (input : FetchInput) (blockHash : Hash) :
    VecnoBlocksFetcher :=
  let formatted := fetcher.current.getLast?.any fun block =>
    block.verboseData.isSome && input.timestampValid
  { fetcher with
    lowHash := blockHash
    task := if formatted then .polling else .dead
    handled := fetcher.handled ++ [fetcher.current]
    current := [] }

/-- The head of the loop over the blocks. -/
def examine (fetcher : VecnoBlocksFetcher) (block : RpcBlock) (rest : List RpcBlock) :
    VecnoBlocksFetcher :=
  let blockHash := block.header.hash
  { fetcher with
    synced := fetcher.synced || fetcher.tipHashes.contains blockHash
    task :=
      if blockHash ∈ fetcher.blockCache then .handling rest blockHash
      else .pushingBlock block rest }

def pushBlock (fetcher : VecnoBlocksFetcher) (block : RpcBlock) (rest : List RpcBlock) :
    VecnoBlocksFetcher :=
  { fetcher with
    blocksPushed := fetcher.blocksPushed ++ [blockData fetcher.synced block]
    task := .pushingTransactions block rest }

def pushTransactions (fetcher : VecnoBlocksFetcher) (input : FetchInput) (block : RpcBlock)
    (rest : List RpcBlock) : VecnoBlocksFetcher :=
  { fetcher with
    txsPushed := fetcher.txsPushed ++ [transactionData block]
    blockCache :=
      if input.refused then fetcher.blockCache else block.header.hash :: fetcher.blockCache
    task := .handling rest block.header.hash }

/-- The fetcher after some entries of its cache are lost. -/
def forget (fetcher : VecnoBlocksFetcher) (input : FetchInput) : VecnoBlocksFetcher :=
  { fetcher with blockCache := fetcher.blockCache.filter fun hash => !input.forgotten hash }

def step (fetcher : VecnoBlocksFetcher) (input : FetchInput) : VecnoBlocksFetcher :=
  let fetcher := fetcher.forget input
  match fetcher.task with
  | .polling =>
      match input.response with
      | some blocks => fetcher.receive input blocks
      | none => fetcher
  | .handling [] blockHash => fetcher.finish input blockHash
  | .handling (block :: rest) _ => fetcher.examine block rest
  | .pushingBlock block rest =>
      if input.full then fetcher else fetcher.pushBlock block rest
  | .pushingTransactions block rest =>
      if input.full then fetcher else fetcher.pushTransactions input block rest
  | .dead => fetcher

/-! ## What is delivered -/

def blockHashes (fetcher : VecnoBlocksFetcher) : List Hash :=
  fetcher.blocksPushed.map fun blockData => blockData.block.header.hash

def txHashes (fetcher : VecnoBlocksFetcher) : List Hash :=
  fetcher.txsPushed.map TransactionData.blockHash

/-- The hashes of some blocks. -/
def hashesOf (blocks : List RpcBlock) : List Hash :=
  blocks.map fun block => block.header.hash

/-- The hashes of the responses handled, and of the one being handled. -/
def received (fetcher : VecnoBlocksFetcher) : List Hash :=
  hashesOf (fetcher.handled.flatten ++ fetcher.current)

/-- Every block is delivered to both queues, in order. -/
structure Delivered (fetcher : VecnoBlocksFetcher) : Prop where
  /-- `blocks_queue` is at most one element ahead. -/
  ahead : fetcher.blockHashes = fetcher.txHashes ∨
    ∃ hash, fetcher.blockHashes = fetcher.txHashes ++ [hash]
  /-- The cursor is the last block of the last response handled. -/
  moved : ∀ response, fetcher.handled.getLast? = some response →
    ∃ last, response.getLast? = some last ∧ fetcher.lowHash = last.header.hash
  long : ∀ response ∈ fetcher.handled, 1 < response.length
  /-- All blocks of a response that the cursor has passed are pushed. -/
  pushed : ∀ response ∈ fetcher.handled, ∀ block ∈ response,
    block.header.hash ∈ fetcher.blockHashes ∧ block.header.hash ∈ fetcher.txHashes
  /-- First pushes follow first appearances. -/
  ordered : fetcher.blockHashes.eraseDups <+: fetcher.received.eraseDups ∧
    fetcher.txHashes.eraseDups <+: fetcher.received.eraseDups
  /-- Between two responses nothing is missing. -/
  complete : fetcher.current = [] →
    fetcher.blockHashes.eraseDups = fetcher.received.eraseDups ∧
      fetcher.txHashes.eraseDups = fetcher.received.eraseDups

/-! ## The invariant -/

/-- Some blocks of the response being handled are done, and some are left. -/
structure Progress (fetcher : VecnoBlocksFetcher) (processed rest : List RpcBlock) : Prop where
  current : fetcher.current = processed ++ rest
  cached : ∀ hash ∈ fetcher.blockCache, hash ∈ fetcher.txHashes
  firsts : fetcher.txHashes.eraseDups =
    (hashesOf (fetcher.handled.flatten ++ processed)).eraseDups
  moved : ∀ response, fetcher.handled.getLast? = some response →
    ∃ last, response.getLast? = some last ∧ fetcher.lowHash = last.header.hash
  long : ∀ response ∈ fetcher.handled, 1 < response.length

/-- The progress that each task stands for. -/
def ConsistentAt (fetcher : VecnoBlocksFetcher) : FetchTask → Prop
  | .polling | .dead => fetcher.Progress [] [] ∧ fetcher.blockHashes = fetcher.txHashes
  | .handling rest blockHash =>
      1 < fetcher.current.length ∧ fetcher.blockHashes = fetcher.txHashes ∧
        ∃ processed, fetcher.Progress processed rest ∧
          ∀ last, processed.getLast? = some last → blockHash = last.header.hash
  | .pushingBlock block rest =>
      1 < fetcher.current.length ∧ fetcher.blockHashes = fetcher.txHashes ∧
        ∃ processed, fetcher.Progress processed (block :: rest)
  | .pushingTransactions block rest =>
      1 < fetcher.current.length ∧
        fetcher.blockHashes = fetcher.txHashes ++ [block.header.hash] ∧
        ∃ processed, fetcher.Progress processed (block :: rest)

/-- The invariant. -/
def Consistent (fetcher : VecnoBlocksFetcher) : Prop :=
  fetcher.ConsistentAt fetcher.task

variable {fetcher : VecnoBlocksFetcher} {input : FetchInput} {block : RpcBlock}
  {processed rest : List RpcBlock}

theorem Progress.forget (progress : fetcher.Progress processed rest) :
    (fetcher.forget input).Progress processed rest where
  current := progress.current
  cached hash hashMem := progress.cached hash (List.mem_filter.mp hashMem).1
  firsts := progress.firsts
  moved := progress.moved
  long := progress.long

/-- A smaller cache is as good. -/
theorem ConsistentAt.forget {task : FetchTask} (consistent : fetcher.ConsistentAt task) :
    (fetcher.forget input).ConsistentAt task := by
  cases task with
  | polling => exact ⟨consistent.1.forget, consistent.2⟩
  | dead => exact ⟨consistent.1.forget, consistent.2⟩
  | handling rest blockHash =>
      obtain ⟨long, same, processed, progress, last⟩ := consistent
      exact ⟨long, same, processed, progress.forget, last⟩
  | pushingBlock block rest =>
      obtain ⟨long, same, processed, progress⟩ := consistent
      exact ⟨long, same, processed, progress.forget⟩
  | pushingTransactions block rest =>
      obtain ⟨long, same, processed, progress⟩ := consistent
      exact ⟨long, same, processed, progress.forget⟩

theorem hashesOf_append (first second : List RpcBlock) :
    hashesOf (first ++ second) = hashesOf first ++ hashesOf second :=
  List.map_append

theorem hashesOf_concat (before : List RpcBlock) :
    hashesOf (before ++ processed ++ [block]) =
      hashesOf (before ++ processed) ++ [block.header.hash] := by
  simp [hashesOf]

/-- A response with more than one block is handled from its start. -/
theorem Progress.receive (progress : fetcher.Progress [] [])
    (same : fetcher.blockHashes = fetcher.txHashes) (polling : fetcher.task = .polling)
    (blocks : List RpcBlock) : (fetcher.receive input blocks).Consistent := by
  unfold Consistent
  by_cases long : 1 < blocks.length
  · simp only [VecnoBlocksFetcher.receive, long, if_true]
    refine ⟨long, same, [], ⟨rfl, progress.cached, progress.firsts, progress.moved,
      progress.long⟩, ?_⟩
    rintro _ ⟨⟩
  · simp only [VecnoBlocksFetcher.receive, long, if_false, polling]
    exact ⟨⟨progress.current, progress.cached, progress.firsts, progress.moved, progress.long⟩,
      same⟩

/-- At the end of a response the cursor moves to its last block. -/
theorem Progress.finish {blockHash : Hash} (progress : fetcher.Progress processed [])
    (long : 1 < fetcher.current.length) (same : fetcher.blockHashes = fetcher.txHashes)
    (last : ∀ last, processed.getLast? = some last → blockHash = last.header.hash) :
    (fetcher.finish input blockHash).Consistent := by
  have whole : fetcher.current = processed := by
    rw [progress.current, List.append_nil]
  have next : (fetcher.finish input blockHash).Progress [] [] := by
    constructor
    · rfl
    · exact progress.cached
    · change fetcher.txHashes.eraseDups =
        (hashesOf ((fetcher.handled ++ [fetcher.current]).flatten ++ [])).eraseDups
      rw [progress.firsts, whole]
      simp
    · intro response isLast
      have isCurrent : fetcher.current = response := by
        simpa [VecnoBlocksFetcher.finish] using isLast
      subst isCurrent
      have nonempty : fetcher.current ≠ [] := List.ne_nil_of_length_pos (by omega)
      refine ⟨_, List.getLast?_eq_getLast_of_ne_nil nonempty, last _ ?_⟩
      rw [← whole]
      exact List.getLast?_eq_getLast_of_ne_nil nonempty
    · intro response responseMem
      rcases List.mem_append.mp responseMem with before | isCurrent
      · exact progress.long response before
      · rw [List.mem_singleton.mp isCurrent]
        exact long
  have task : (fetcher.finish input blockHash).task = .polling ∨
      (fetcher.finish input blockHash).task = .dead := by
    simp only [VecnoBlocksFetcher.finish]
    split
    · exact Or.inl rfl
    · exact Or.inr rfl
  unfold Consistent
  rcases task with polling | dead
  · rw [polling]
    exact ⟨next, same⟩
  · rw [dead]
    exact ⟨next, same⟩

/-- A block the cache knows was pushed before; any other one is pushed now. -/
theorem Progress.examine (progress : fetcher.Progress processed (block :: rest))
    (long : 1 < fetcher.current.length) (same : fetcher.blockHashes = fetcher.txHashes) :
    (fetcher.examine block rest).Consistent := by
  unfold Consistent
  by_cases known : block.header.hash ∈ fetcher.blockCache
  · have occurred : block.header.hash ∈ hashesOf (fetcher.handled.flatten ++ processed) :=
      (mem_iff_of_eraseDups_eq progress.firsts).mp (progress.cached _ known)
    simp only [VecnoBlocksFetcher.examine, known, if_true]
    refine ⟨long, same, processed ++ [block], ⟨?_, progress.cached, ?_, progress.moved,
      progress.long⟩, ?_⟩
    · rw [List.append_assoc]
      exact progress.current
    · rw [← List.append_assoc, hashesOf_concat, eraseDups_concat_of_mem occurred]
      exact progress.firsts
    · intro last isLast
      rw [List.getLast?_concat] at isLast
      cases isLast
      rfl
  · simp only [VecnoBlocksFetcher.examine, known, if_false]
    exact ⟨long, same, processed, progress.current, progress.cached, progress.firsts,
      progress.moved, progress.long⟩

theorem Progress.pushBlock (progress : fetcher.Progress processed (block :: rest))
    (long : 1 < fetcher.current.length) (same : fetcher.blockHashes = fetcher.txHashes) :
    (fetcher.pushBlock block rest).Consistent := by
  refine ⟨long, ?_, processed, progress.current, progress.cached, progress.firsts,
    progress.moved, progress.long⟩
  change (fetcher.blocksPushed ++ [blockData fetcher.synced block]).map _ = _
  rw [List.map_append]
  exact congrArg (· ++ [block.header.hash]) same

theorem Progress.pushTransactions (progress : fetcher.Progress processed (block :: rest))
    (long : 1 < fetcher.current.length)
    (ahead : fetcher.blockHashes = fetcher.txHashes ++ [block.header.hash]) :
    (fetcher.pushTransactions input block rest).Consistent := by
  have pushed : (fetcher.pushTransactions input block rest).txHashes =
      fetcher.txHashes ++ [block.header.hash] :=
    List.map_append
  refine ⟨long, ahead.trans pushed.symm, processed ++ [block], ⟨?_, ?_, ?_, progress.moved,
    progress.long⟩, ?_⟩
  · rw [List.append_assoc]
    exact progress.current
  · intro hash hashMem
    rw [pushed]
    have entered : hash = block.header.hash ∨ hash ∈ fetcher.blockCache := by
      unfold VecnoBlocksFetcher.pushTransactions at hashMem
      simp only at hashMem
      split at hashMem
      · exact Or.inr hashMem
      · exact List.mem_cons.mp hashMem
    rcases entered with rfl | before
    · exact List.mem_append_right _ (List.mem_singleton_self _)
    · exact List.mem_append_left _ (progress.cached hash before)
  · rw [pushed, ← List.append_assoc, hashesOf_concat]
    exact eraseDups_concat_congr progress.firsts block.header.hash
  · intro last isLast
    rw [List.getLast?_concat] at isLast
    cases isLast
    rfl

/-- The step lemma. -/
theorem Consistent.step (consistent : fetcher.Consistent) (input : FetchInput) :
    (fetcher.step input).Consistent := by
  have forgotten : (fetcher.forget input).ConsistentAt fetcher.task := consistent.forget
  unfold VecnoBlocksFetcher.step
  change VecnoBlocksFetcher.Consistent (match fetcher.task with
    | .polling => _ | .handling [] blockHash => _ | .handling (block :: rest) _ => _
    | .pushingBlock block rest => _ | .pushingTransactions block rest => _ | .dead => _)
  cases task : fetcher.task with
  | polling =>
      rw [task] at forgotten
      cases input.response with
      | some blocks => exact forgotten.1.receive forgotten.2 task blocks
      | none =>
          change (fetcher.forget input).ConsistentAt fetcher.task
          rw [task]
          exact forgotten
  | dead =>
      change (fetcher.forget input).ConsistentAt fetcher.task
      exact forgotten
  | handling rest blockHash =>
      rw [task] at forgotten
      obtain ⟨long, same, processed, progress, last⟩ := forgotten
      cases rest with
      | nil => exact progress.finish long same last
      | cons block rest => exact progress.examine long same
  | pushingBlock block rest =>
      rw [task] at forgotten
      by_cases full : input.full = true
      · simp only [full, if_true]
        change (fetcher.forget input).ConsistentAt fetcher.task
        rw [task]
        exact forgotten
      · simp only [full]
        obtain ⟨long, same, processed, progress⟩ := forgotten
        exact progress.pushBlock long same
  | pushingTransactions block rest =>
      rw [task] at forgotten
      by_cases full : input.full = true
      · simp only [full, if_true]
        change (fetcher.forget input).ConsistentAt fetcher.task
        rw [task]
        exact forgotten
      · simp only [full]
        obtain ⟨long, ahead, processed, progress⟩ := forgotten
        exact progress.pushTransactions long ahead

/-- What the transactions queue has, and what it will have at the end of the response. -/
theorem Progress.prefix_received (progress : fetcher.Progress processed rest) :
    (hashesOf (fetcher.handled.flatten ++ processed)).eraseDups <+: fetcher.received.eraseDups := by
  unfold received
  rw [progress.current, ← List.append_assoc, hashesOf_append _ rest]
  exact eraseDups_prefix _ _

/-- The blocks of the responses handled are pushed. -/
theorem Progress.mem_txHashes (progress : fetcher.Progress processed rest)
    {response : List RpcBlock} (responseMem : response ∈ fetcher.handled)
    (blockMem : block ∈ response) : block.header.hash ∈ fetcher.txHashes := by
  apply (mem_iff_of_eraseDups_eq progress.firsts).mpr
  apply List.mem_map_of_mem
  exact List.mem_append_left _ (List.mem_flatten.mpr ⟨response, responseMem, blockMem⟩)

/-- With the queues level, everything is delivered. -/
theorem Progress.delivered (progress : fetcher.Progress processed rest)
    (same : fetcher.blockHashes = fetcher.txHashes) : fetcher.Delivered where
  ahead := Or.inl same
  moved := progress.moved
  long := progress.long
  pushed response responseMem block blockMem := by
    have pushed := progress.mem_txHashes responseMem blockMem
    exact ⟨same ▸ pushed, pushed⟩
  ordered := by
    rw [same, progress.firsts]
    exact ⟨progress.prefix_received, progress.prefix_received⟩
  complete empty := by
    have nothing : processed = [] :=
      (List.append_eq_nil_iff.mp (progress.current.symm.trans empty)).1
    rw [same, progress.firsts, received, empty, nothing]
    exact ⟨rfl, rfl⟩

/-- With `blocks_queue` one block ahead, that block is the next one. -/
theorem Progress.delivered_ahead (progress : fetcher.Progress processed (block :: rest))
    (ahead : fetcher.blockHashes = fetcher.txHashes ++ [block.header.hash]) :
    fetcher.Delivered where
  ahead := Or.inr ⟨_, ahead⟩
  moved := progress.moved
  long := progress.long
  pushed response responseMem other otherMem := by
    have pushed := progress.mem_txHashes responseMem otherMem
    exact ⟨ahead ▸ List.mem_append_left _ pushed, pushed⟩
  ordered := by
    have next : fetcher.blockHashes.eraseDups =
        (hashesOf (fetcher.handled.flatten ++ (processed ++ [block]))).eraseDups := by
      rw [ahead, ← List.append_assoc, hashesOf_concat]
      exact eraseDups_concat_congr progress.firsts _
    have later : (hashesOf (fetcher.handled.flatten ++ (processed ++ [block]))).eraseDups <+:
        fetcher.received.eraseDups := by
      have split : fetcher.received =
          hashesOf (fetcher.handled.flatten ++ (processed ++ [block])) ++ hashesOf rest := by
        simp [received, progress.current, hashesOf]
      rw [split]
      exact eraseDups_prefix _ _
    rw [next, progress.firsts]
    exact ⟨later, progress.prefix_received⟩
  complete empty := by
    rw [progress.current] at empty
    simp at empty

theorem Consistent.delivered (consistent : fetcher.Consistent) : fetcher.Delivered := by
  unfold Consistent at consistent
  cases task : fetcher.task with
  | polling =>
      rw [task] at consistent
      exact consistent.1.delivered consistent.2
  | dead =>
      rw [task] at consistent
      exact consistent.1.delivered consistent.2
  | handling rest blockHash =>
      rw [task] at consistent
      obtain ⟨_, same, _, progress, _⟩ := consistent
      exact progress.delivered same
  | pushingBlock block rest =>
      rw [task] at consistent
      obtain ⟨_, same, _, progress⟩ := consistent
      exact progress.delivered same
  | pushingTransactions block rest =>
      rw [task] at consistent
      obtain ⟨_, ahead, _, progress⟩ := consistent
      exact progress.delivered_ahead ahead

/-- In every state of every run from a new fetcher, every block is delivered to both
queues, in order. -/
theorem delivered_of_run (checkpoint : Hash) (inputs : List FetchInput) :
    (runFrom step (new checkpoint) inputs).Delivered := by
  have initial : (new checkpoint).Consistent := by
    refine ⟨⟨rfl, ?_, rfl, ?_, ?_⟩, rfl⟩
    · exact fun hash hashMem => absurd hashMem List.not_mem_nil
    · rintro response ⟨⟩
    · exact fun response responseMem => absurd responseMem List.not_mem_nil
  exact (invariant_of_run (fun _ input consistent => consistent.step input) inputs
    initial).delivered

end VecnoBlocksFetcher

end VecnoIndexer
