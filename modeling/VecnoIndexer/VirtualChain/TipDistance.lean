import VecnoIndexer.VirtualChain.Core
import VecnoIndexer.Transition.Run

/-!
# The tip distance over many batches

The history holds one mark for each of the last batches, newest first.  The marks of
batches that removed rows widen the distance when there are three of them, and then
the newest is taken back.  A distance that was narrowed with a full history leaves a
mark of its own, which has to leave the window before the next one is narrowed.
-/

namespace VecnoIndexer

open VecnoIndexer.Sql
open VecnoIndexer.Transition

/-! ## Batches -/

/-- What the tip distance is adjusted to: how many rows a committed batch removed, and
whether the processor was synced by then. -/
structure TipBatch where
  rowsRemoved : ℕ
  synced : Bool
  deriving DecidableEq, Repr

namespace VcpState

/-- A committed batch. Once synced, the processor stays so. -/
def commit (cliArgs : CliArgs) (vcp : VcpState) (batch : TipBatch) : VcpState :=
  adjustTipDistance cliArgs { vcp with synced := vcp.synced || batch.synced } batch.rowsRemoved

/-- The state after some committed batches. -/
def afterBatches (settings : Settings) (batches : List TipBatch) : VcpState :=
  runFrom (commit settings.cliArgs) (start settings) batches

/-! ## One batch -/

/-- The history fits the window and has at most two marks. -/
structure HistoryBounded (cliArgs : CliArgs) (vcp : VcpState) : Prop where
  length : vcp.tipDistanceHistory.length ≤ tipDistanceWindow cliArgs
  marks : vcp.tipDistanceHistory.count true ≤ 2

/-- The marks that are kept when one is put in front. -/
def keptHistory (cliArgs : CliArgs) (vcp : VcpState) : List Bool :=
  if vcp.tipDistanceHistory.length = tipDistanceWindow cliArgs then
    vcp.tipDistanceHistory.dropLast
  else
    vcp.tipDistanceHistory

/-- What a batch does to the tip distance and its history. -/
inductive Adjusts (cliArgs : CliArgs) (vcp : VcpState) (rowsRemoved : ℕ) (synced : Bool)
    (after : VcpState) : Prop
  | off (tipDistance : after.tipDistance = vcp.tipDistance)
      (history : after.tipDistanceHistory = vcp.tipDistanceHistory)
  | widened (reorgs : 3 ≤ (decide (0 < rowsRemoved) :: keptHistory cliArgs vcp).count true)
      (tipDistance : after.tipDistance = vcp.tipDistance + 1)
      (history : after.tipDistanceHistory = false :: keptHistory cliArgs vcp)
  | narrowed (noReorgs : (decide (0 < rowsRemoved) :: keptHistory cliArgs vcp).count true = 0)
      (isSynced : synced = true) (tipDistance : after.tipDistance + 1 = vcp.tipDistance)
      (history : after.tipDistanceHistory =
        decide ((keptHistory cliArgs vcp).length + 1 = tipDistanceWindow cliArgs) ::
          keptHistory cliArgs vcp)
  | kept (fewReorgs : (decide (0 < rowsRemoved) :: keptHistory cliArgs vcp).count true ≤ 2)
      (tipDistance : after.tipDistance = vcp.tipDistance)
      (history : after.tipDistanceHistory = decide (0 < rowsRemoved) :: keptHistory cliArgs vcp)

variable {cliArgs : CliArgs} {vcp : VcpState}

theorem adjustTipDistance_of_dynamic (vcp : VcpState) (rowsRemoved : ℕ)
    (dynamic : cliArgs.isEnabled .dynamicVcpTipDistance = true) :
    vcp.adjustTipDistance cliArgs rowsRemoved =
      let kept := keptHistory cliArgs vcp
      let history := decide (0 < rowsRemoved) :: kept
      if 3 ≤ history.count true then
        { vcp with
          tipDistance := vcp.tipDistance + 1
          tipDistanceHistory := false :: kept }
      else if vcp.synced ∧ history.count true = 0 ∧ 0 < vcp.tipDistance then
        { vcp with
          tipDistance := vcp.tipDistance - 1
          tipDistanceHistory :=
            if history.length = tipDistanceWindow cliArgs then true :: kept else history }
      else
        { vcp with tipDistanceHistory := history } :=
  if_pos dynamic

theorem adjusts (cliArgs : CliArgs) (vcp : VcpState) (rowsRemoved : ℕ) :
    Adjusts cliArgs vcp rowsRemoved vcp.synced (vcp.adjustTipDistance cliArgs rowsRemoved) := by
  by_cases dynamic : cliArgs.isEnabled .dynamicVcpTipDistance = true
  · rw [adjustTipDistance_of_dynamic vcp rowsRemoved dynamic]
    simp only
    by_cases widens : 3 ≤ (decide (0 < rowsRemoved) :: keptHistory cliArgs vcp).count true
    · rw [if_pos widens]
      exact .widened widens rfl rfl
    · rw [if_neg widens]
      by_cases narrows : vcp.synced ∧
          (decide (0 < rowsRemoved) :: keptHistory cliArgs vcp).count true = 0 ∧
          0 < vcp.tipDistance
      · rw [if_pos narrows]
        obtain ⟨isSynced, noReorgs, positive⟩ := narrows
        refine .narrowed noReorgs isSynced (Nat.sub_add_cancel positive) ?_
        have noRows : decide (0 < rowsRemoved) = false := by
          by_contra removed
          rw [Bool.not_eq_false] at removed
          simp [removed] at noReorgs
        simp only [noRows, List.length_cons]
        split_ifs with full
        · rw [decide_eq_true full]
        · rw [decide_eq_false full]
      · rw [if_neg narrows]
        exact .kept (Nat.le_of_lt_succ (Nat.lt_of_not_le widens)) rfl rfl
  · have off : vcp.adjustTipDistance cliArgs rowsRemoved = vcp := if_neg dynamic
    rw [off]
    exact .off rfl rfl

theorem tipDistanceWindow_pos (cliArgs : CliArgs) : 0 < tipDistanceWindow cliArgs :=
  Nat.lt_of_lt_of_le Nat.one_pos (Nat.le_max_right _ 1)

theorem keptHistory_isPrefixOf (cliArgs : CliArgs) (vcp : VcpState) :
    keptHistory cliArgs vcp <+: vcp.tipDistanceHistory := by
  unfold keptHistory
  split_ifs
  · exact List.dropLast_prefix _
  · exact List.prefix_rfl

namespace HistoryBounded

theorem kept_length (bounded : HistoryBounded cliArgs vcp) :
    (keptHistory cliArgs vcp).length < tipDistanceWindow cliArgs := by
  have positive := tipDistanceWindow_pos cliArgs
  have atMost := bounded.length
  unfold keptHistory
  split_ifs with full
  · rw [List.length_dropLast]
    omega
  · omega

theorem kept_marks (bounded : HistoryBounded cliArgs vcp) :
    (keptHistory cliArgs vcp).count true ≤ 2 :=
  ((keptHistory_isPrefixOf cliArgs vcp).count_le true).trans bounded.marks

theorem start (settings : Settings) : HistoryBounded settings.cliArgs (start settings) :=
  ⟨Nat.zero_le _, Nat.zero_le _⟩

/-- One mark in front of the kept ones. -/
theorem of_front (bounded : HistoryBounded cliArgs vcp) {after : VcpState} {mark : Bool}
    (history : after.tipDistanceHistory = mark :: keptHistory cliArgs vcp)
    (marks : (mark :: keptHistory cliArgs vcp).count true ≤ 2) : HistoryBounded cliArgs after where
  length := by
    rw [history]
    exact bounded.kept_length
  marks := by
    rw [history]
    exact marks

/-- The step lemma. -/
theorem commit (bounded : HistoryBounded cliArgs vcp) (batch : TipBatch) :
    HistoryBounded cliArgs (vcp.commit cliArgs batch) := by
  rcases adjusts cliArgs { vcp with synced := vcp.synced || batch.synced } batch.rowsRemoved with
    ⟨_, history⟩ | ⟨_, _, history⟩ | ⟨noReorgs, _, _, history⟩ | ⟨fewReorgs, _, history⟩
  · constructor
    · rw [VcpState.commit, history]
      exact bounded.length
    · rw [VcpState.commit, history]
      exact bounded.marks
  · exact bounded.of_front history bounded.kept_marks
  · refine bounded.of_front history ?_
    have noMarks : (keptHistory cliArgs vcp).count true ≤ 0 :=
      List.count_le_count_cons.trans (le_of_eq noReorgs)
    rw [List.count_cons]
    split_ifs <;> omega
  · exact bounded.of_front history fewReorgs

end HistoryBounded

/-! ## The mark of a narrowed distance -/

/-- A mark at a position of the full history. -/
structure Marked (cliArgs : CliArgs) (vcp : VcpState) (position : ℕ) : Prop where
  full : vcp.tipDistanceHistory.length = tipDistanceWindow cliArgs
  mark : vcp.tipDistanceHistory[position]? = some true

namespace Marked

variable {position : ℕ}

theorem kept_length (marked : Marked cliArgs vcp position) :
    (keptHistory cliArgs vcp).length + 1 = tipDistanceWindow cliArgs := by
  have positive := tipDistanceWindow_pos cliArgs
  rw [keptHistory, if_pos marked.full, List.length_dropLast, marked.full]
  omega

/-- A mark that is not the oldest is kept. -/
theorem kept_mark (marked : Marked cliArgs vcp position)
    (within : position + 1 < tipDistanceWindow cliArgs) :
    (keptHistory cliArgs vcp)[position]? = some true := by
  rw [keptHistory, if_pos marked.full, List.getElem?_dropLast, marked.full,
    if_pos (Nat.lt_sub_of_add_lt within)]
  exact marked.mark

/-- While the mark stays within the window the distance is not narrowed. -/
theorem commit (marked : Marked cliArgs vcp position)
    (within : position + 1 < tipDistanceWindow cliArgs) (batch : TipBatch) :
    vcp.tipDistance ≤ (vcp.commit cliArgs batch).tipDistance ∧
      ∃ moved ≤ position + 1, Marked cliArgs (vcp.commit cliArgs batch) moved := by
  have kept := marked.kept_mark within
  have front {after : VcpState} {mark : Bool}
      (history : after.tipDistanceHistory = mark :: keptHistory cliArgs vcp) :
      ∃ moved ≤ position + 1, Marked cliArgs after moved := by
    refine ⟨position + 1, le_rfl, ?_, ?_⟩
    · rw [history]
      exact marked.kept_length
    · rw [history]
      exact kept
  rcases adjusts cliArgs { vcp with synced := vcp.synced || batch.synced } batch.rowsRemoved with
    ⟨tipDistance, history⟩ | ⟨_, tipDistance, history⟩ | ⟨noReorgs, _, _, _⟩ |
      ⟨_, tipDistance, history⟩
  · refine ⟨ge_of_eq tipDistance, position, Nat.le_succ _, ?_, ?_⟩
    · rw [VcpState.commit, history]
      exact marked.full
    · rw [VcpState.commit, history]
      exact marked.mark
  · exact ⟨(Nat.le_succ _).trans (ge_of_eq tipDistance), front history⟩
  · have listed : true ∈ keptHistory cliArgs vcp := List.mem_of_getElem? kept
    exact absurd (List.mem_cons_of_mem _ listed) (List.count_eq_zero.mp noReorgs)
  · exact ⟨ge_of_eq tipDistance, front history⟩

/-- Narrowing with a full history marks the front. -/
theorem of_narrowed {batch : TipBatch}
    (narrowed : (vcp.commit cliArgs batch).tipDistance + 1 = vcp.tipDistance)
    (full : (vcp.commit cliArgs batch).tipDistanceHistory.length = tipDistanceWindow cliArgs) :
    Marked cliArgs (vcp.commit cliArgs batch) 0 := by
  refine ⟨full, ?_⟩
  unfold VcpState.commit at narrowed full ⊢
  rcases adjusts cliArgs { vcp with synced := vcp.synced || batch.synced } batch.rowsRemoved with
    ⟨tipDistance, _⟩ | ⟨_, tipDistance, _⟩ | ⟨_, _, _, history⟩ | ⟨_, tipDistance, _⟩
  · rw [tipDistance] at narrowed
    exact absurd narrowed (Nat.succ_ne_self _)
  · rw [tipDistance] at narrowed
    exact absurd narrowed (Nat.ne_of_gt (Nat.lt_add_of_pos_right Nat.two_pos))
  · rw [history] at full ⊢
    rw [List.length_cons] at full
    rw [decide_eq_true full]
    rfl
  · rw [tipDistance] at narrowed
    exact absurd narrowed (Nat.succ_ne_self _)

/-- After fewer batches than the mark needs to leave the window, the distance is not
narrowed. -/
theorem not_narrowed (marked : Marked cliArgs vcp position) {middle : List TipBatch}
    (within : position + middle.length + 1 < tipDistanceWindow cliArgs) (batch : TipBatch) :
    let reached := runFrom (VcpState.commit cliArgs) vcp middle
    reached.tipDistance ≤ (reached.commit cliArgs batch).tipDistance := by
  induction middle generalizing vcp position with
  | nil => exact (marked.commit within batch).1
  | cons next rest ih =>
      rw [List.length_cons] at within
      obtain ⟨_, moved, atMost, movedMarked⟩ := marked.commit (by omega) next
      exact ih movedMarked (by omega)

end Marked

/-! ## Whole runs -/

/-- How the tip distance and its history develop over the batches. -/
structure TipControlled (settings : Settings) : Prop where
  /-- The history fits the window and has at most two marks. -/
  bounded : ∀ batches, HistoryBounded settings.cliArgs (afterBatches settings batches)
  /-- A batch leaves the distance, widens it by one if it removed rows, or narrows a positive one
  by one. -/
  moves : ∀ earlier batch,
    let before := afterBatches settings earlier
    let after := before.commit settings.cliArgs batch
    after.tipDistance = before.tipDistance ∨
      (after.tipDistance = before.tipDistance + 1 ∧ 0 < batch.rowsRemoved) ∨
      after.tipDistance + 1 = before.tipDistance
  /-- Two batches that narrow the distance with a full history are a window apart. -/
  spaced : ∀ earlier first middle second,
    let beforeFirst := afterBatches settings earlier
    let afterFirst := beforeFirst.commit settings.cliArgs first
    let beforeSecond := runFrom (commit settings.cliArgs) afterFirst middle
    let afterSecond := beforeSecond.commit settings.cliArgs second
    afterFirst.tipDistance + 1 = beforeFirst.tipDistance →
      afterFirst.tipDistanceHistory.length = tipDistanceWindow settings.cliArgs →
      afterSecond.tipDistance + 1 = beforeSecond.tipDistance →
      afterSecond.tipDistanceHistory.length = tipDistanceWindow settings.cliArgs →
      tipDistanceWindow settings.cliArgs ≤ middle.length + 1
  /-- The slices of an answer with one accepted list for each added block. -/
  slices : ∀ batches (response : VirtualChain),
    let count := response.addedChainBlockHashes.length - (afterBatches settings batches).tipDistance
    (afterBatches settings batches).tipDistance < response.addedChainBlockHashes.length →
      response.acceptedTransactionIds.length = response.addedChainBlockHashes.length →
      count ≤ response.addedChainBlockHashes.length ∧
        count ≤ response.acceptedTransactionIds.length ∧
        response.addedChainBlockHashes.take count ≠ [] ∧
        response.acceptedTransactionIds.take count ≠ []

/-- Three marks take a batch that removed rows. -/
theorem removed_of_reorgs {rowsRemoved : ℕ} {kept : List Bool} (keptMarks : kept.count true ≤ 2)
    (reorgs : 3 ≤ (decide (0 < rowsRemoved) :: kept).count true) : 0 < rowsRemoved := by
  by_contra noRows
  rw [decide_eq_false noRows, List.count_cons_of_ne Bool.false_ne_true] at reorgs
  omega

theorem bounded_afterBatches (settings : Settings) (batches : List TipBatch) :
    HistoryBounded settings.cliArgs (afterBatches settings batches) := by
  have preserved : ∀ state batch, HistoryBounded settings.cliArgs state →
      HistoryBounded settings.cliArgs (VcpState.commit settings.cliArgs state batch) :=
    fun _ batch bounded => bounded.commit batch
  exact invariant_of_run preserved batches (.start settings)

theorem tipControlled_of_run (settings : Settings) : TipControlled settings where
  bounded := bounded_afterBatches settings
  moves := by
    intro earlier batch before after
    have bounded : HistoryBounded settings.cliArgs before := bounded_afterBatches settings earlier
    rcases adjusts settings.cliArgs { before with synced := before.synced || batch.synced }
      batch.rowsRemoved with ⟨same, _⟩ | ⟨reorgs, widened, _⟩ | ⟨_, _, narrowed, _⟩ | ⟨_, same, _⟩
    · exact Or.inl same
    · exact Or.inr (Or.inl ⟨widened, removed_of_reorgs bounded.kept_marks reorgs⟩)
    · exact Or.inr (Or.inr narrowed)
    · exact Or.inl same
  spaced := by
    intro earlier first middle second beforeFirst afterFirst beforeSecond afterSecond
      firstNarrowed firstFull secondNarrowed _
    by_contra close
    have marked : Marked settings.cliArgs afterFirst 0 := .of_narrowed firstNarrowed firstFull
    have notNarrowed : beforeSecond.tipDistance ≤ afterSecond.tipDistance :=
      marked.not_narrowed (by omega) second
    omega
  slices := by
    intro batches response count enough onePerBlock
    have positive : 0 < count := Nat.sub_pos_of_lt enough
    have inRange : count ≤ response.addedChainBlockHashes.length := Nat.sub_le _ _
    have nonempty {α : Type} {values : List α} (within : count ≤ values.length) :
        values.take count ≠ [] := by
      apply List.ne_nil_of_length_pos
      rwa [List.length_take, Nat.min_eq_left within]
    rw [onePerBlock]
    exact ⟨inRange, inRange, nonempty inRange, nonempty (onePerBlock ▸ inRange)⟩

/-! ## The batches of a run of polls -/

/-- The states the loop reaches, whatever the node answers and the database does. -/
inductive PollReached (settings : Settings) : VcpState → Prop
  | start : PollReached settings (start settings)
  | poll {vcp after : VcpState} {input : VcpInput} {checkpoint : Option CheckpointBlock}
      {db final : Db} {script rest : Script} (reached : PollReached settings vcp)
      (ran : Session.run (pollVirtualChain settings.cliArgs vcp input) db script =
        .done (after, checkpoint) final rest) : PollReached settings after

/-- A response that is worked off commits a batch or changes nothing. -/
theorem adjusted_of_response {input : VcpInput} {response : VirtualChain} {after : VcpState}
    {checkpoint : Option CheckpointBlock} {db final : Db} {script rest : Script}
    (ran : Session.run (pollResponse cliArgs vcp input response) db script =
      .done (after, checkpoint) final rest) :
    after = vcp ∨ ∃ rowsRemoved startHash,
      after = { vcp.adjustTipDistance cliArgs rowsRemoved with startHash } := by
  unfold pollResponse at ran
  split at ran
  · unfold pollBatch at ran
    simp only at ran
    split at ran
    · cases ran
    · rename_i header _
      split at ran
      · cases ran
        exact Or.inl rfl
      · split at ran
        · obtain ⟨_, _, _, _, ran⟩ := Session.done_of_run_bind ran
          cases ran
        · obtain ⟨rowsRemoved, _, _, _, ran⟩ := Session.done_of_run_bind ran
          cases ran
          exact Or.inr ⟨rowsRemoved, header.hash, rfl⟩
  · cases ran
    exact Or.inl rfl

/-- The adjustment reads the distance, the history and whether the processor is synced. -/
theorem adjustTipDistance_with (cliArgs : CliArgs) (vcp : VcpState) (startHash : Hash)
    (rowsRemoved : ℕ) :
    adjustTipDistance cliArgs { vcp with startHash } rowsRemoved =
      { vcp.adjustTipDistance cliArgs rowsRemoved with startHash } := by
  unfold adjustTipDistance
  split_ifs
  · simp only
    split_ifs <;> rfl
  · rfl

/-- A run of polls has the tip distance of the batches it committed. -/
theorem exists_batches_of_pollReached {settings : Settings} (reached : PollReached settings vcp) :
    ∃ batches, vcp.tipDistance = (afterBatches settings batches).tipDistance ∧
      vcp.tipDistanceHistory = (afterBatches settings batches).tipDistanceHistory ∧
      ((afterBatches settings batches).synced = true → vcp.synced = true) := by
  induction reached with
  | start => exact ⟨[], rfl, rfl, id⟩
  | @poll vcp after input checkpoint db final script rest reached ran ih =>
      obtain ⟨batches, tipDistance, history, synced⟩ := ih
      unfold pollVirtualChain at ran
      cases response : input.response with
      | none =>
          rw [response] at ran
          cases ran
          exact ⟨batches, tipDistance, history, synced⟩
      | some answer =>
          rw [response] at ran
          obtain ⟨⟨polled, _⟩, _, _, responded, ran⟩ := Session.done_of_run_bind ran
          cases ran
          rcases adjusted_of_response responded with rfl | ⟨rowsRemoved, startHash, rfl⟩
          · exact ⟨batches, tipDistance, history, fun isSynced => by simp [synced isSynced]⟩
          · let abstract := afterBatches settings batches
            have same : ({ abstract with synced := abstract.synced || vcp.synced } : VcpState) =
                { vcp with startHash := abstract.startHash } := by
              have bySynced : (abstract.synced || vcp.synced) = vcp.synced := by
                cases abstractSynced : abstract.synced with
                | false => rfl
                | true => rw [synced abstractSynced, Bool.or_true]
              rw [bySynced, tipDistance, history]
            have committed : afterBatches settings (batches ++ [⟨rowsRemoved, vcp.synced⟩]) =
                { vcp.adjustTipDistance settings.cliArgs rowsRemoved with
                  startHash := abstract.startHash } := by
              rw [← adjustTipDistance_with, ← same, afterBatches, runFrom_append]
              rfl
            refine ⟨batches ++ [⟨rowsRemoved, vcp.synced⟩], ?_, ?_, ?_⟩
            · rw [committed]
            · rw [committed]
            · rw [committed]
              exact fun isSynced => Bool.or_eq_true_iff.mpr (Or.inl isSynced)

end VcpState

end VecnoIndexer
