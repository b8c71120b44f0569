import VecnoIndexer.Chain.Past
import VecnoIndexer.System.Checkpoints

/-!
# The fetcher hands over pasts

The node answers a request for the blocks after one with blocks that come after their
parents, as far as these are not in the past of the one asked for.  The cursor only moves
to blocks that were answered, so over all responses every block comes after its parents,
back to the past of the checkpoint that the fetcher was started with.
-/

namespace VecnoIndexer

open VecnoIndexer.Collections
open VecnoIndexer.Transition

/-- The blocks a node knows. -/
structure NodeBlocks extends Chain.BlockDag Hash where
  transactions : Hash → List RpcTransaction

namespace NodeBlocks

variable (node : NodeBlocks)

/-- The hashes of a block's parents. -/
def parentsOf (block : RpcBlock) : List Hash :=
  (VecnoDbMapper.mapBlockParents block).map BlockParent.parentHash

/-- A block as the node sends it. -/
structure Serves (block : RpcBlock) : Prop where
  parents : parentsOf block = node.parents block.header.hash
  transactions : block.transactions = node.transactions block.header.hash

/-- An answer to `get_blocks`. -/
structure Answers (lowHash : Hash) (blocks : List RpcBlock) : Prop where
  serves : ∀ block ∈ blocks, node.Serves block
  parentsFirst : node.ParentsFirst (node.past lowHash) (VecnoBlocksFetcher.hashesOf blocks)

/-- The id of a transaction commits to how many inputs it has and to its outputs. -/
def Identified : Prop :=
  ∀ firstHash secondHash, ∀ first ∈ node.transactions firstHash,
    ∀ second ∈ node.transactions secondHash, first.transactionId = second.transactionId →
      first.inputs.length = second.inputs.length ∧ first.outputs = second.outputs

end NodeBlocks

/-! ## The fetcher -/

namespace VecnoBlocksFetcher

variable {node : NodeBlocks} {checkpoint : Hash} {fetcher : VecnoBlocksFetcher}
  {input : FetchInput} {block : RpcBlock} {processed rest : List RpcBlock}

/-- What was received are blocks of the node after their parents, and what was pushed was
received. -/
structure Ancestral (node : NodeBlocks) (checkpoint : Hash) (fetcher : VecnoBlocksFetcher) :
    Prop where
  low : fetcher.lowHash ∈ node.past checkpoint ∨
    fetcher.lowHash ∈ hashesOf fetcher.handled.flatten
  parentsFirst : node.ParentsFirst (node.past checkpoint) fetcher.received
  current : ∀ block ∈ fetcher.current, node.Serves block
  blocks : ∀ blockData ∈ fetcher.blocksPushed,
    NodeBlocks.parentsOf blockData.block = node.parents blockData.block.header.hash
  txs : ∀ data ∈ fetcher.txsPushed, data.transactions = node.transactions data.blockHash

theorem ancestral_new (node : NodeBlocks) (checkpoint : Hash) :
    (new checkpoint).Ancestral node checkpoint where
  low := Or.inl (Chain.BlockDag.mem_past_self _ _)
  parentsFirst := trivial
  current _ isCurrent := absurd isCurrent List.not_mem_nil
  blocks _ isPushed := absurd isPushed List.not_mem_nil
  txs _ isPushed := absurd isPushed List.not_mem_nil

/-- A poll that is answered. -/
theorem Ancestral.receive (ancestral : fetcher.Ancestral node checkpoint)
    (idle : fetcher.current = []) {blocks : List RpcBlock}
    (answers : node.Answers fetcher.lowHash blocks) :
    (fetcher.receive input blocks).Ancestral node checkpoint := by
  by_cases long : 1 < blocks.length
  · simp only [VecnoBlocksFetcher.receive, long, if_true]
    refine ⟨ancestral.low, ?_, answers.serves, ancestral.blocks, ancestral.txs⟩
    have before : fetcher.received = hashesOf fetcher.handled.flatten := by
      rw [received, idle, List.append_nil]
    have closed := ancestral.parentsFirst.closed (Chain.BlockDag.closed_past _ checkpoint)
    change node.ParentsFirst _ (hashesOf (fetcher.handled.flatten ++ blocks))
    rw [hashesOf_append, ← before, Chain.BlockDag.parentsFirst_append]
    refine ⟨ancestral.parentsFirst, answers.parentsFirst.mono (closed.past_subset ?_)⟩
    rw [before]
    exact ancestral.low
  · simp only [VecnoBlocksFetcher.receive, long, if_false]
    exact { ancestral with }

/-- The cursor moves to the last block. -/
theorem Ancestral.finish (ancestral : fetcher.Ancestral node checkpoint) {blockHash : Hash}
    (handled : blockHash ∈ hashesOf fetcher.current) :
    (fetcher.finish input blockHash).Ancestral node checkpoint := by
  have flattened : (fetcher.handled ++ [fetcher.current]).flatten =
      fetcher.handled.flatten ++ fetcher.current := by
    simp
  refine ⟨Or.inr ?_, ?_, ?_, ancestral.blocks, ancestral.txs⟩
  · change blockHash ∈ hashesOf (fetcher.handled ++ [fetcher.current]).flatten
    rw [flattened, hashesOf_append]
    exact List.mem_append_right _ handled
  · change node.ParentsFirst _
      (hashesOf ((fetcher.handled ++ [fetcher.current]).flatten ++ []))
    rw [flattened, List.append_nil]
    exact ancestral.parentsFirst
  · exact fun _ isCurrent => absurd isCurrent List.not_mem_nil

theorem Ancestral.pushBlock (ancestral : fetcher.Ancestral node checkpoint)
    (serves : node.Serves block) : (fetcher.pushBlock block rest).Ancestral node checkpoint := by
  refine { ancestral with blocks := ?_ }
  intro blockData isPushed
  rcases List.mem_append.mp isPushed with before | now
  · exact ancestral.blocks blockData before
  · rw [List.mem_singleton.mp now]
    exact serves.parents

theorem Ancestral.pushTransactions (ancestral : fetcher.Ancestral node checkpoint)
    (serves : node.Serves block) :
    (fetcher.pushTransactions input block rest).Ancestral node checkpoint := by
  refine { ancestral with txs := ?_ }
  intro data isPushed
  rcases List.mem_append.mp isPushed with before | now
  · exact ancestral.txs data before
  · rw [List.mem_singleton.mp now]
    exact serves.transactions

theorem Progress.mem_current (progress : fetcher.Progress processed (block :: rest)) :
    block ∈ fetcher.current :=
  progress.current ▸ List.mem_append_right _ List.mem_cons_self

/-- The rule for a step: it receives a response, or it handles a block of the last one. -/
theorem holds_step {holds : VecnoBlocksFetcher → Prop} (consistent : fetcher.Consistent)
    (before : holds (fetcher.forget input))
    (receives : fetcher.task = .polling → fetcher.current = [] → ∀ blocks,
      input.response = some blocks → holds ((fetcher.forget input).receive input blocks))
    (finishes : ∀ blockHash ∈ hashesOf fetcher.current,
      holds ((fetcher.forget input).finish input blockHash))
    (examines : ∀ block rest, holds ((fetcher.forget input).examine block rest))
    (pushesBlock : ∀ block ∈ fetcher.current, ∀ rest,
      holds ((fetcher.forget input).pushBlock block rest))
    (pushesTransactions : ∀ block ∈ fetcher.current, ∀ rest,
      holds ((fetcher.forget input).pushTransactions input block rest)) :
    holds (fetcher.step input) := by
  have task : (fetcher.forget input).task = fetcher.task := rfl
  unfold Consistent at consistent
  unfold VecnoBlocksFetcher.step
  simp only [task]
  cases fetcherTask : fetcher.task with
  | polling =>
      rw [fetcherTask] at consistent
      cases response : input.response with
      | none => exact before
      | some blocks => exact receives fetcherTask consistent.1.current blocks response
  | handling rest blockHash =>
      rw [fetcherTask] at consistent
      cases rest with
      | nil =>
          obtain ⟨long, _, processed, progress, isLast⟩ := consistent
          refine finishes blockHash ?_
          have whole : fetcher.current = processed := progress.current.trans (List.append_nil _)
          have nonempty : processed ≠ [] := List.ne_nil_of_length_pos (by rw [← whole]; omega)
          rw [isLast _ (List.getLast?_eq_getLast_of_ne_nil nonempty)]
          exact List.mem_map_of_mem (whole ▸ List.getLast_mem nonempty)
      | cons block rest => exact examines block rest
  | pushingBlock block rest =>
      rw [fetcherTask] at consistent
      obtain ⟨_, _, processed, progress⟩ := consistent
      simp only
      split_ifs
      · exact before
      · exact pushesBlock block progress.mem_current rest
  | pushingTransactions block rest =>
      rw [fetcherTask] at consistent
      obtain ⟨_, _, processed, progress⟩ := consistent
      simp only
      split_ifs
      · exact before
      · exact pushesTransactions block progress.mem_current rest
  | dead => exact before

/-- The step lemma. -/
theorem Ancestral.step (ancestral : fetcher.Ancestral node checkpoint)
    (consistent : fetcher.Consistent)
    (answered : fetcher.task = .polling → ∀ blocks, input.response = some blocks →
      node.Answers fetcher.lowHash blocks) :
    (fetcher.step input).Ancestral node checkpoint := by
  have forgotten : (fetcher.forget input).Ancestral node checkpoint := { ancestral with }
  apply holds_step consistent forgotten
  · exact fun polling idle blocks response =>
      forgotten.receive idle (answered polling blocks response)
  · exact fun blockHash handled => forgotten.finish handled
  · exact fun block rest => { forgotten with }
  · exact fun block isCurrent rest => forgotten.pushBlock (ancestral.current block isCurrent)
  · exact fun block isCurrent rest =>
      forgotten.pushTransactions (ancestral.current block isCurrent)

/-- What is handed over to either queue comes after its parents. -/
theorem Ancestral.parentsFirst_pushed (ancestral : fetcher.Ancestral node checkpoint)
    (delivered : fetcher.Delivered) :
    node.ParentsFirst (node.past checkpoint) fetcher.blockHashes ∧
      node.ParentsFirst (node.past checkpoint) fetcher.txHashes := by
  have closed := Chain.BlockDag.closed_past node.toBlockDag checkpoint
  have received := (Chain.BlockDag.parentsFirst_eraseDups closed).mpr ancestral.parentsFirst
  obtain ⟨blocks, txs⟩ := delivered.ordered
  exact ⟨(Chain.BlockDag.parentsFirst_eraseDups closed).mp (received.of_prefix blocks),
    (Chain.BlockDag.parentsFirst_eraseDups closed).mp (received.of_prefix txs)⟩

end VecnoBlocksFetcher

end VecnoIndexer
