import Mathlib.Data.List.Nodup
import VecnoIndexer.Sql.Cuts
import VecnoIndexer.Sql.Table

/-!
# Deleting in chunks

`DELETE .. WHERE ctid IN (SELECT .. LIMIT n)`, repeated until a statement affects
no row.  A `ctid` names one row, so equal rows are told apart by their position.
The subselect may join other tables of the state, which the deletion leaves alone.

However the loop ends, the rows it does not match are still there.  If it returns,
they are all that is left.
-/

namespace VecnoIndexer.Sql

variable {ε σ α κ : Type} {key : α → Option κ}

/-! ## Rows by position -/

namespace Table

/-- The rows with their positions. -/
def located (table : Table key) : List (α × ℕ) :=
  table.rows.zipIdx

@[simp]
theorem map_fst_located (table : Table key) : table.located.map Prod.fst = table.rows :=
  List.zipIdx_map_fst 0 table.rows

section Join

variable {β κ' : Type} {otherKey : β → Option κ'}

/-- `SELECT row.ctid .. JOIN other ON .. WHERE condition`: a row is listed once for each of
its partners. -/
def joined (table : Table key) (others : Table otherKey) (joins : α → β → Bool)
    (condition : β → Bool) : List (α × ℕ) :=
  table.located.flatMap fun row =>
    (others.rows.filter fun other => joins row.1 other && condition other).map fun _ => row

/-- A row that is joined by key has at most one partner. -/
theorem joined_eq_filter [DecidableEq κ'] (table : Table key) (others : Table otherKey)
    {joins : α → β → Bool} {condition : β → Bool} (on : α → κ')
    (keyed : ∀ row other, joins row other = decide (otherKey other = some (on row))) :
    table.joined others joins condition =
      table.located.filter fun row => (others.lookup (on row.1)).any condition := by
  have partners (row : α) : (others.rows.filter fun other => joins row other && condition other) =
      (others.lookup (on row)).toList.filter condition := by
    rw [← others.filter_key_eq, List.filter_filter]
    apply List.filter_congr
    intro other _
    rw [keyed, Bool.and_comm]
  rw [joined]
  induction table.located with
  | nil => rfl
  | cons row rest ih =>
      rw [List.flatMap_cons, ih, partners, List.filter_cons]
      cases others.lookup (on row.1) with
      | none => rfl
      | some other =>
          cases matched : condition other <;> simp [matched]

end Join

variable [DecidableEq α]

theorem map_filter_located_sublist (table : Table key) (picked : List (α × ℕ)) :
    ((table.located.filter fun row => row ∉ picked).map Prod.fst).Sublist table.rows := by
  conv_rhs => rw [← table.map_fst_located]
  exact List.filter_sublist.map Prod.fst

/-- Delete the rows at some positions. -/
def deleteAt (table : Table key) (picked : List (α × ℕ)) : Table key where
  rows := (table.located.filter fun row => row ∉ picked).map Prod.fst
  unique := List.Pairwise.sublist (table.map_filter_located_sublist picked) table.unique

@[simp]
theorem deleteAt_nil (table : Table key) : table.deleteAt [] = table := by
  cases table
  simp [deleteAt, located]

omit [DecidableEq α] in
theorem nodup_located (table : Table key) : table.located.Nodup := by
  have positions : (table.located.map Prod.snd).Nodup := by
    rw [located, List.zipIdx_map_snd]
    exact List.nodup_range'
  exact List.Nodup.of_map Prod.snd positions

/-- Picked rows that a condition matches are the difference in the number of such rows. -/
theorem countWhere_deleteAt {table : Table key} {condition : α → Prop} [DecidablePred condition]
    {picked : List (α × ℕ)}
    (sublist : picked.Sublist (table.located.filter fun row => condition row.1)) :
    picked.length + (table.deleteAt picked).countWhere condition = table.countWhere condition := by
  let matching := table.located.filter fun row => decide (condition row.1)
  have nodup : matching.Nodup := table.nodup_located.filter _
  have total : table.countWhere condition = matching.length := by
    rw [countWhere, ← table.map_fst_located, List.countP_map, List.countP_eq_length_filter]
    rfl
  have left : (table.deleteAt picked).countWhere condition =
      matching.countP fun row => row ∉ picked := by
    rw [countWhere, deleteAt, List.countP_map, List.countP_filter, List.countP_filter]
    apply List.countP_congr
    intro row _
    simp [and_comm]
  have taken : matching.countP (fun row => row ∈ picked) = picked.length := by
    rw [List.countP_eq_length_filter]
    apply List.Perm.length_eq
    apply (List.perm_ext_iff_of_nodup (nodup.filter _) (nodup.sublist sublist)).mpr
    intro row
    rw [List.mem_filter, decide_eq_true_iff]
    exact and_iff_right_of_imp fun isPicked => sublist.subset isPicked
  rw [total, left, ← taken]
  simpa using (List.length_eq_countP_add_countP fun row => decide (row ∈ picked)).symm

theorem length_deleteAt_lt {table : Table key} {picked : List (α × ℕ)} {row : α × ℕ}
    (isRow : row ∈ table.located) (isPicked : row ∈ picked) :
    (table.deleteAt picked).rows.length < table.rows.length := by
  conv_rhs => rw [← table.map_fst_located]
  rw [deleteAt, List.length_map, List.length_map]
  apply List.length_filter_lt_length_iff_exists.mpr
  exact ⟨row, isRow, by simp [isPicked]⟩

end Table

/-- Rows are gone, but none that the condition does not match. -/
structure Thinned (condition : α → Prop) [DecidablePred condition] (before after : List α) :
    Prop where
  sublist : after.Sublist before
  kept : (after.filter fun row => ¬ condition row) = before.filter fun row => ¬ condition row

namespace Thinned

variable {condition : α → Prop} [DecidablePred condition] {first second third : List α}

theorem refl (rows : List α) : Thinned condition rows rows :=
  ⟨List.Sublist.refl rows, rfl⟩

theorem trans (before : Thinned condition first second) (after : Thinned condition second third) :
    Thinned condition first third :=
  ⟨after.sublist.trans before.sublist, after.kept.trans before.kept⟩

theorem mem_of_not (thinned : Thinned condition first second) {row : α} (rowMem : row ∈ first)
    (unmatched : ¬ condition row) : row ∈ second := by
  have inFilter : row ∈ first.filter fun row => ¬ condition row :=
    List.mem_filter.mpr ⟨rowMem, decide_eq_true unmatched⟩
  rw [← thinned.kept] at inFilter
  exact (List.mem_filter.mp inFilter).1

/-- Where no matching row is left, exactly the others are. -/
theorem eq_filter (thinned : Thinned condition first second)
    (finished : ∀ row ∈ second, ¬ condition row) :
    second = first.filter fun row => ¬ condition row := by
  rw [← thinned.kept, eq_comm, List.filter_eq_self]
  exact fun row rowMem => decide_eq_true (finished row rowMem)

end Thinned

theorem thinned_deleteAt [DecidableEq α] (table : Table key) {condition : α → Prop}
    [DecidablePred condition] {picked : List (α × ℕ)}
    (matched : ∀ row ∈ picked, condition row.1) :
    Thinned condition table.rows (table.deleteAt picked).rows where
  sublist := table.map_filter_located_sublist picked
  kept := by
    conv_rhs => rw [← table.map_fst_located]
    rw [Table.deleteAt, List.filter_map, List.filter_map, List.filter_filter]
    apply congrArg (List.map Prod.fst)
    apply List.filter_congr
    intro row _
    by_cases isPicked : row ∈ picked
    · simp [isPicked, matched row isPicked]
    · simp [isPicked]

/-! ## The loop -/

/-- What a chunked deletion deletes: rows of one table, matched by a condition that
may read the others. -/
structure Deletion (σ : Type) (key : α → Option κ) where
  place : TableOf σ key
  condition : σ → α → Prop
  decidable : ∀ state, DecidablePred (condition state)
  frame : ∀ table state, condition (place.set table state) = condition state

namespace Deletion

variable (deletion : Deletion σ key)

instance (state : σ) : DecidablePred (deletion.condition state) :=
  deletion.decidable state

/-- The rows the subselect matches. -/
def matching (state : σ) : List (α × ℕ) :=
  (deletion.place.get state).located.filter fun row => deletion.condition state row.1

/-- The state without all matching rows. -/
def all (state : σ) : σ :=
  deletion.place.set ((deletion.place.get state).deleteWhere (deletion.condition state)) state

theorem all_eq_self {state : σ}
    (nothing : ∀ row ∈ deletion.place.get state, ¬ deletion.condition state row) :
    deletion.all state = state := by
  rw [all, Table.deleteWhere_eq_self nothing, deletion.place.set_get]

variable [DecidableEq α]

/-- One statement: the number of rows affected, and the state after it. -/
def chunk (choice : LimitChoice (α × ℕ)) (limit : ℕ) (state : σ) : ℕ × σ :=
  let picked := choice.pick limit (deletion.matching state)
  (picked.length, deletion.place.set ((deletion.place.get state).deleteAt picked) state)

variable (unavailable negativeLimit : ε)

def deleteChunk (limit : Int) (choice : LimitChoice (α × ℕ)) : Session ε σ ℕ :=
  Session.statement unavailable fun state =>
    if limit < 0 then .error negativeLimit else .ok (deletion.chunk choice limit.toNat state)

/-- At most `fuel` statements, up to the first that affects no row. -/
def deleteChunks (limit : Int) : ℕ → (ℕ → LimitChoice (α × ℕ)) → Session ε σ ℕ
  | 0, _ => pure 0
  | fuel + 1, choices => do
      let rowsAffected ← deletion.deleteChunk unavailable negativeLimit limit (choices 0)
      if rowsAffected = 0 then
        pure 0
      else do
        let total ← deleteChunks limit fuel fun n => choices (n + 1)
        pure (rowsAffected + total)

/-- The loop. Every statement but the last deletes a row, so it ends within the
number of them. -/
def deleteLoop (limit : Int) (choices : ℕ → LimitChoice (α × ℕ)) : Session ε σ ℕ :=
  fun state script =>
    Session.run (deletion.deleteChunks unavailable negativeLimit limit
      ((deletion.place.get state).rows.length + 1) choices) state script

/-! ## What it leaves -/

/-- Some matching rows may be gone; nothing else has changed. -/
def Leaves (before after : σ) : Prop :=
  ∃ table, after = deletion.place.set table before ∧
    Thinned (deletion.condition before) (deletion.place.get before).rows table.rows

variable {deletion unavailable negativeLimit}

omit [DecidableEq α] in
theorem leaves_refl (state : σ) : deletion.Leaves state state :=
  ⟨deletion.place.get state, (deletion.place.set_get state).symm, Thinned.refl _⟩

omit [DecidableEq α] in
theorem Leaves.trans {first second third : σ} (before : deletion.Leaves first second)
    (after : deletion.Leaves second third) : deletion.Leaves first third := by
  obtain ⟨middle, rfl, thinned⟩ := before
  obtain ⟨table, rfl, thinnedAgain⟩ := after
  refine ⟨table, deletion.place.set_set _ _ _, thinned.trans ?_⟩
  rw [deletion.place.get_set] at thinnedAgain
  simpa only [deletion.frame] using thinnedAgain

omit [DecidableEq α] in
theorem condition_of_mem_pick {choice : LimitChoice (α × ℕ)} {limit : ℕ} {state : σ}
    {row : α × ℕ} (picked : row ∈ choice.pick limit (deletion.matching state)) :
    row ∈ (deletion.place.get state).located ∧ deletion.condition state row.1 := by
  have matched := List.mem_filter.mp (choice.mem_of_mem_pick picked)
  exact ⟨matched.1, of_decide_eq_true matched.2⟩

omit [DecidableEq α] in
theorem pick_eq_nil_iff {choice : LimitChoice (α × ℕ)} {limit : ℕ} (positive : 0 < limit)
    {state : σ} : choice.pick limit (deletion.matching state) = [] ↔
      ∀ row ∈ (deletion.place.get state).rows, ¬ deletion.condition state row := by
  rw [choice.pick_eq_nil_iff positive, matching, List.filter_eq_nil_iff,
    ← Table.map_fst_located]
  simp only [decide_eq_true_eq, List.forall_mem_map]

theorem leaves_chunk (choice : LimitChoice (α × ℕ)) (limit : ℕ) (state : σ) :
    deletion.Leaves state (deletion.chunk choice limit state).2 :=
  ⟨_, rfl, thinned_deleteAt _ fun _ picked => (condition_of_mem_pick picked).2⟩

/-- Whatever happens to the statements, only matching rows are gone. -/
theorem keeps_deleteChunks (limit : Int) (start : σ) (fuel : ℕ)
    (choices : ℕ → LimitChoice (α × ℕ)) :
    (deletion.deleteChunks unavailable negativeLimit limit fuel choices).Keeps
      (deletion.Leaves start) := by
  induction fuel generalizing choices with
  | zero => exact Session.keeps_pure 0 _
  | succ fuel ih =>
      have statement : (deletion.deleteChunk unavailable negativeLimit limit (choices 0)).Keeps
          (deletion.Leaves start) := by
        apply Session.keeps_statement
        intro state rowsAffected next leaves executed
        split at executed
        · contradiction
        · cases executed
          exact leaves.trans (leaves_chunk (choices 0) limit.toNat state)
      apply statement.bind
      intro rowsAffected
      split
      · exact Session.keeps_pure 0 _
      · exact (ih _).bind fun total => Session.keeps_pure _ _

theorem leaves_deleteLoop (limit : Int) (choices : ℕ → LimitChoice (α × ℕ)) (state : σ)
    (script : Script) :
    deletion.Leaves state (Session.run
      (deletion.deleteLoop unavailable negativeLimit limit choices) state script).state :=
  keeps_deleteChunks limit state _ choices state script (leaves_refl state)

omit [DecidableEq α] in
/-- Where no matching row is left, the state is that of one deletion of all of them. -/
theorem Leaves.eq_all {before after : σ} (leaves : deletion.Leaves before after)
    (finished : ∀ row ∈ (deletion.place.get after).rows, ¬ deletion.condition before row) :
    after = deletion.all before := by
  obtain ⟨table, rfl, thinned⟩ := leaves
  rw [deletion.place.get_set] at finished
  have rows := thinned.eq_filter finished
  have same : table =
      (deletion.place.get before).deleteWhere (deletion.condition before) := by
    cases table
    cases rows
    rfl
  rw [all, ← same]

/-- The number of rows the condition matches. -/
def affected (deletion : Deletion σ key) (state : σ) : ℕ :=
  (deletion.place.get state).countWhere (deletion.condition state)

/-- A statement affects some of the matching rows. -/
theorem affected_chunk (choice : LimitChoice (α × ℕ)) (limit : ℕ) (state : σ) :
    (deletion.chunk choice limit state).1 +
        deletion.affected (deletion.chunk choice limit state).2 =
      deletion.affected state := by
  rw [affected, affected, chunk, deletion.place.get_set]
  simp only [deletion.frame]
  exact Table.countWhere_deleteAt (choice.sublist limit _)

/-- A statement that affects no row leaves no matching row; any other leaves fewer rows. -/
theorem chunk_cases (deletion : Deletion σ key) (choice : LimitChoice (α × ℕ)) {limit : ℕ}
    (positive : 0 < limit) (state : σ) :
    (deletion.chunk choice limit state).1 = 0 ∧ (deletion.chunk choice limit state).2 = state ∧
        (∀ row ∈ (deletion.place.get state).rows, ¬ deletion.condition state row) ∨
      (deletion.chunk choice limit state).1 ≠ 0 ∧
        (deletion.place.get (deletion.chunk choice limit state).2).rows.length <
          (deletion.place.get state).rows.length := by
  rw [chunk, deletion.place.get_set]
  by_cases nothing : choice.pick limit (deletion.matching state) = []
  · left
    rw [nothing, Table.deleteAt_nil, deletion.place.set_get]
    exact ⟨rfl, rfl, (pick_eq_nil_iff positive).mp nothing⟩
  · right
    obtain ⟨row, isPicked⟩ := List.exists_mem_of_ne_nil _ nothing
    exact ⟨mt List.length_eq_zero_iff.mp nothing,
      Table.length_deleteAt_lt (condition_of_mem_pick isPicked).1 isPicked⟩

/-- A statement that affects rows leaves fewer of them. -/
theorem fewer_of_run_deleteChunk {limit : Int} {choice : LimitChoice (α × ℕ)} {state next : σ}
    {script rest : Script} {rowsAffected : ℕ}
    (ran : Session.run (deletion.deleteChunk unavailable negativeLimit limit choice) state script =
      .done rowsAffected next rest)
    (affects : rowsAffected ≠ 0) :
    (deletion.place.get next).rows.length < (deletion.place.get state).rows.length := by
  have executed := Session.executed_of_run_statement ran
  split at executed
  · contradiction
  · obtain ⟨rfl, rfl⟩ := Prod.mk.inj (Except.ok.inj executed)
    have positive : 0 < limit.toNat := by
      by_contra zero
      apply affects
      rw [(by omega : limit.toNat = 0), choice.length_eq, Nat.zero_min]
    rcases deletion.chunk_cases choice positive state with ⟨none, _⟩ | ⟨_, fewer⟩
    · exact absurd none affects
    · exact fewer

/-- The fuel does not matter once there is more of it than rows. -/
theorem run_deleteChunks_eq {limit : Int} {fuel other : ℕ} (choices : ℕ → LimitChoice (α × ℕ))
    {state : σ} (enough : (deletion.place.get state).rows.length < fuel)
    (otherEnough : (deletion.place.get state).rows.length < other) (script : Script) :
    Session.run (deletion.deleteChunks unavailable negativeLimit limit fuel choices) state script =
      Session.run (deletion.deleteChunks unavailable negativeLimit limit other choices) state
        script := by
  induction fuel generalizing other choices state script with
  | zero => omega
  | succ fuel ih =>
      cases other with
      | zero => omega
      | succ other =>
          rw [deleteChunks, deleteChunks, Session.run_bind, Session.run_bind]
          cases ran : Session.run (deletion.deleteChunk unavailable negativeLimit limit
              (choices 0)) state script with
          | failed _ _ _ => rfl
          | killed _ => rfl
          | done rowsAffected next rest =>
              dsimp only
              split
              · rfl
              · rename_i affects
                have fewer := fewer_of_run_deleteChunk ran affects
                have later := ih (fun n => choices (n + 1)) (by omega)
                  (by omega : (deletion.place.get next).rows.length < other) rest
                rw [Session.run_bind, Session.run_bind, later]

/-- The loop as the code has it, without a bound on its rounds. -/
theorem deleteLoop_eq (limit : Int) (choices : ℕ → LimitChoice (α × ℕ)) :
    deletion.deleteLoop unavailable negativeLimit limit choices = (do
      let rowsAffected ← deletion.deleteChunk unavailable negativeLimit limit (choices 0)
      if rowsAffected = 0 then
        pure 0
      else do
        let total ← deletion.deleteLoop unavailable negativeLimit limit fun n => choices (n + 1)
        pure (rowsAffected + total)) := by
  funext state script
  change Session.run (deletion.deleteChunks unavailable negativeLimit limit
      ((deletion.place.get state).rows.length + 1) choices) state script =
    Session.run _ state script
  rw [deleteChunks, Session.run_bind, Session.run_bind]
  cases ran : Session.run (deletion.deleteChunk unavailable negativeLimit limit (choices 0)) state
      script with
  | failed _ _ _ => rfl
  | killed _ => rfl
  | done rowsAffected next rest =>
      dsimp only
      split
      · rfl
      · rename_i affects
        have fewer := fewer_of_run_deleteChunk ran affects
        rw [Session.run_bind, Session.run_bind,
          run_deleteChunks_eq _ fewer (Nat.lt_succ_self (deletion.place.get next).rows.length)]
        rfl

theorem completes_deleteChunks {limit : Int} (positive : 0 < limit) {fuel : ℕ}
    (choices : ℕ → LimitChoice (α × ℕ)) {start state : σ} (leaves : deletion.Leaves start state)
    (enough : (deletion.place.get state).rows.length < fuel) :
    (deletion.deleteChunks unavailable negativeLimit limit fuel choices).Completes state
      (deletion.affected state) (deletion.all start) := by
  induction fuel generalizing choices state with
  | zero => omega
  | succ fuel ih =>
      let next := deletion.chunk (choices 0) limit.toNat state
      have executed : (deletion.deleteChunk unavailable negativeLimit limit
          (choices 0)).Completes state next.1 next.2 := by
        apply Session.completes_statement
        rw [if_neg (by omega)]
      have nextLeaves : deletion.Leaves start next.2 :=
        leaves.trans (leaves_chunk (choices 0) limit.toNat state)
      have counted : next.1 + deletion.affected next.2 = deletion.affected state :=
        affected_chunk (choices 0) limit.toNat state
      have limitPositive : 0 < limit.toNat := by omega
      rcases deletion.chunk_cases (choices 0) limitPositive state with
        ⟨idle, unchanged, finished⟩ | ⟨affects, fewer⟩
      · have sameCondition : deletion.condition state = deletion.condition start := by
          obtain ⟨_, same, _⟩ := leaves
          rw [same, deletion.frame]
        have nothing : deletion.affected state = 0 := by
          rw [affected, Table.countWhere, List.countP_eq_zero]
          exact fun row stored => by simpa using finished row stored
        rw [sameCondition] at finished
        refine executed.bind ?_
        rw [if_pos idle, unchanged, ← leaves.eq_all finished, nothing]
        exact Session.completes_pure 0 state
      · refine executed.bind ?_
        rw [if_neg affects, ← counted]
        have later := ih (fun n => choices (n + 1)) nextLeaves
          (Nat.lt_of_lt_of_le fewer (Nat.le_of_lt_succ enough))
        exact later.bind (Session.completes_pure _ _)

theorem completes_deleteLoop {limit : Int} (positive : 0 < limit)
    (choices : ℕ → LimitChoice (α × ℕ)) (state : σ) :
    (deletion.deleteLoop unavailable negativeLimit limit choices).Completes state
      (deletion.affected state) (deletion.all state) :=
  completes_deleteChunks positive choices (leaves_refl state) (Nat.lt_succ_self _)

theorem strict_deleteChunks (limit : Int) (fuel : ℕ) (choices : ℕ → LimitChoice (α × ℕ)) :
    (deletion.deleteChunks unavailable negativeLimit limit fuel choices).Strict := by
  induction fuel generalizing choices with
  | zero => exact Session.strict_pure 0
  | succ fuel ih =>
      apply (Session.strict_statement _ _).bind
      intro rowsAffected
      split
      · exact Session.strict_pure 0
      · exact (ih _).bind fun total => Session.strict_pure _

/-- A loop that returns has deleted exactly the matching rows, or, with a limit of
zero, none. -/
theorem eq_of_done_deleteLoop {limit : Int} {choices : ℕ → LimitChoice (α × ℕ)}
    {state after : σ} {script rest : Script} {total : ℕ}
    (ran : Session.run (deletion.deleteLoop unavailable negativeLimit limit choices) state script =
      .done total after rest) :
    (0 < limit ∧ after = deletion.all state) ∨ (limit = 0 ∧ after = state) := by
  have completes : (deletion.deleteChunks unavailable negativeLimit limit
      ((deletion.place.get state).rows.length + 1) choices).Completes state total after :=
    strict_deleteChunks limit _ choices _ _ _ _ _ ran
  rcases Int.lt_trichotomy limit 0 with negative | rfl | positive
  · obtain ⟨rest, _, returned⟩ := completes (fun _ => .succeeds) fun _ => rfl
    simp [deleteChunks, deleteChunk, Session.run_bind, Session.run_statement, negative] at returned
  · refine Or.inr ⟨rfl, ?_⟩
    have executed : (deletion.deleteChunk unavailable negativeLimit 0 (choices 0)).Completes state
        0 state := by
      apply Session.completes_statement
      have nothing : (choices 0).pick 0 (deletion.matching state) = [] := by
        rw [← List.length_eq_zero_iff, (choices 0).length_eq, Nat.zero_min]
      simp [chunk, nothing, deletion.place.set_get]
    exact (completes.unique (executed.bind (Session.completes_pure 0 state))).2
  · refine Or.inl ⟨positive, ?_⟩
    exact (completes.unique (completes_deleteLoop positive choices state)).2

/-! ## Statement by statement -/

/-- The state after some statements of the loop. -/
def afterChunks (deletion : Deletion σ key) (limit : ℕ) :
    (ℕ → LimitChoice (α × ℕ)) → ℕ → σ → σ
  | _, 0, state => state
  | choices, n + 1, state =>
      afterChunks deletion limit (fun k => choices (k + 1)) n
        (deletion.chunk (choices 0) limit state).2

/-- A statement fails before the row is deleted. -/
def FailsBefore (deletion : Deletion σ key) (limit : ℕ) (choices : ℕ → LimitChoice (α × ℕ))
    (script : Script) (state : σ) (row : α) : Prop :=
  ∃ n, script.Executes n ∧ script n = .fails ∧
    row ∈ deletion.place.get (deletion.afterChunks limit choices n state)

theorem leaves_afterChunks (limit : ℕ) (choices : ℕ → LimitChoice (α × ℕ)) (n : ℕ) (state : σ) :
    deletion.Leaves state (deletion.afterChunks limit choices n state) := by
  induction n generalizing choices state with
  | zero => exact leaves_refl state
  | succ n ih => exact (leaves_chunk (choices 0) limit state).trans (ih _ _)

omit [DecidableEq α] in
theorem Leaves.mem {before after : σ} (leaves : deletion.Leaves before after) {row : α}
    (left : row ∈ deletion.place.get after) : row ∈ deletion.place.get before := by
  obtain ⟨table, rfl, thinned⟩ := leaves
  rw [deletion.place.get_set] at left
  exact thinned.sublist.subset left

omit [DecidableEq α] in
theorem Leaves.mem_of_not {before after : σ} (leaves : deletion.Leaves before after) {row : α}
    (stored : row ∈ deletion.place.get before) (unmatched : ¬ deletion.condition before row) :
    row ∈ deletion.place.get after := by
  obtain ⟨table, rfl, thinned⟩ := leaves
  rw [deletion.place.get_set]
  exact thinned.mem_of_not stored unmatched

theorem condition_chunk (choice : LimitChoice (α × ℕ)) (limit : ℕ) (state : σ) :
    deletion.condition (deletion.chunk choice limit state).2 = deletion.condition state :=
  deletion.frame _ state

omit [DecidableEq α] in
theorem matching_congr {first second : σ}
    (rows : deletion.place.get second = deletion.place.get first)
    (condition : deletion.condition second = deletion.condition first) :
    deletion.matching second = deletion.matching first := by
  unfold matching
  rw [rows]
  exact List.filter_congr fun row _ => by simp only [condition]

/-- The statements read nothing but the rows and their condition. -/
theorem get_afterChunks_congr {limit : ℕ} {choices : ℕ → LimitChoice (α × ℕ)} {n : ℕ}
    {first second : σ} (rows : deletion.place.get second = deletion.place.get first)
    (condition : deletion.condition second = deletion.condition first) :
    deletion.place.get (deletion.afterChunks limit choices n second) =
      deletion.place.get (deletion.afterChunks limit choices n first) := by
  induction n generalizing choices first second with
  | zero => exact rows
  | succ n ih =>
      apply ih
      · simp only [chunk, deletion.place.get_set, rows, matching_congr rows condition]
      · rw [condition_chunk, condition_chunk, condition]

theorem failsBefore_congr {limit : ℕ} {choices : ℕ → LimitChoice (α × ℕ)} {script : Script}
    {first second : σ} (rows : deletion.place.get second = deletion.place.get first)
    (condition : deletion.condition second = deletion.condition first) {row : α} :
    deletion.FailsBefore limit choices script second row ↔
      deletion.FailsBefore limit choices script first row := by
  unfold FailsBefore
  simp only [get_afterChunks_congr rows condition]

/-- What the first statement leaves, with a limit. -/
theorem run_deleteChunk_of_succeeds {limit : Int} (positive : 0 < limit)
    (choice : LimitChoice (α × ℕ)) (state : σ) {script : Script}
    (succeeds : script 0 = .succeeds) :
    Session.run (deletion.deleteChunk unavailable negativeLimit limit choice) state script =
      .done (deletion.chunk choice limit.toNat state).1 (deletion.chunk choice limit.toNat state).2
        script.tail := by
  apply Session.run_statement_of_succeeds succeeds
  rw [if_neg (by omega)]

/-- The matching rows that a loop leaves are those left by a statement that fails, unless the
process dies. -/
theorem failsBefore_of_left {limit : Int} (positive : 0 < limit) {fuel : ℕ}
    {choices : ℕ → LimitChoice (α × ℕ)} {state : σ} {script : Script}
    (enough : (deletion.place.get state).rows.length < fuel)
    (survives : ∀ dead, Session.run (deletion.deleteChunks unavailable negativeLimit limit fuel
      choices) state script ≠ .killed dead) {row : α}
    (left : row ∈ deletion.place.get (Session.run (deletion.deleteChunks unavailable negativeLimit
      limit fuel choices) state script).state) (matched : deletion.condition state row) :
    deletion.FailsBefore limit.toNat choices script state row := by
  induction fuel generalizing choices state script with
  | zero => omega
  | succ fuel ih =>
      rw [deleteChunks, Session.run_bind] at survives left
      cases outcome : script 0 with
      | fails =>
          rw [deleteChunk, Session.run_statement, outcome] at left
          exact ⟨0, Script.executes_zero script, outcome, left⟩
      | killed =>
          rw [deleteChunk, Session.run_statement, outcome] at survives
          exact absurd rfl (survives state)
      | succeeds =>
          rw [run_deleteChunk_of_succeeds positive (choices 0) state outcome] at survives left
          dsimp only at survives left
          rcases deletion.chunk_cases (choices 0) (by omega : 0 < limit.toNat) state with
            ⟨idle, unchanged, finished⟩ | ⟨affects, fewer⟩
          · rw [if_pos idle, unchanged] at left
            exact absurd matched (finished row left)
          · rw [if_neg affects] at survives left
            have silent : ∀ (total : ℕ) (last : σ) (rest : Script), (Session.run
                (pure ((deletion.chunk (choices 0) limit.toNat state).1 + total) :
                  Session ε σ ℕ) last rest).state = last :=
              fun _ _ _ => rfl
            rw [Session.state_bind silent] at left
            obtain ⟨n, executes, fails, inLater⟩ := ih (Nat.lt_of_lt_of_le fewer
                (Nat.le_of_lt_succ enough)) (fun dead killed => survives dead (by
              rw [Session.run_bind, killed])) left (by rwa [condition_chunk])
            exact ⟨n + 1, Script.executes_succ_iff.mpr ⟨outcome, executes⟩, fails, inLater⟩

/-- A loop with a matching row left at the statement that fails ends there. -/
theorem run_deleteChunks_of_fails {limit : Int} (positive : 0 < limit) {fuel n : ℕ}
    {choices : ℕ → LimitChoice (α × ℕ)} {state : σ} {script : Script}
    (enough : (deletion.place.get state).rows.length < fuel) (executes : script.Executes n)
    (fails : script n = .fails) {row : α}
    (left : row ∈ deletion.place.get (deletion.afterChunks limit.toNat choices n state))
    (matched : deletion.condition state row) :
    ∃ rest, Session.run (deletion.deleteChunks unavailable negativeLimit limit fuel choices) state
      script = .failed unavailable (deletion.afterChunks limit.toNat choices n state) rest := by
  induction n generalizing fuel choices state script with
  | zero =>
      obtain ⟨fuel, rfl⟩ : ∃ more, fuel = more + 1 := ⟨fuel - 1, by omega⟩
      refine ⟨script.tail, ?_⟩
      rw [deleteChunks, Session.run_bind, deleteChunk, Session.run_statement, fails]
      rfl
  | succ n ih =>
      obtain ⟨fuel, rfl⟩ : ∃ more, fuel = more + 1 := ⟨fuel - 1, by omega⟩
      obtain ⟨succeeds, later⟩ := Script.executes_succ_iff.mp executes
      rw [deleteChunks, Session.run_bind,
        run_deleteChunk_of_succeeds positive (choices 0) state succeeds]
      dsimp only
      rcases deletion.chunk_cases (choices 0) (by omega : 0 < limit.toNat) state with
        ⟨_, _, finished⟩ | ⟨affects, fewer⟩
      · exact absurd matched
          (finished row ((leaves_afterChunks limit.toNat choices _ state).mem left))
      · rw [if_neg affects]
        obtain ⟨rest, ran⟩ := @ih fuel (fun k => choices (k + 1)) _ script.tail
          (Nat.lt_of_lt_of_le fewer (Nat.le_of_lt_succ enough)) later fails left
          (by rwa [condition_chunk])
        exact ⟨rest, by rw [Session.run_bind, ran]; rfl⟩

/-- Where the process survives, a loop leaves the matching rows before which a statement fails. -/
theorem mem_deleteLoop_iff {limit : Int} (positive : 0 < limit) {choices : ℕ → LimitChoice (α × ℕ)}
    {state : σ} {script : Script}
    (survives : ∀ dead, Session.run (deletion.deleteLoop unavailable negativeLimit limit choices)
      state script ≠ .killed dead) {row : α} (matched : deletion.condition state row) :
    row ∈ deletion.place.get (Session.run (deletion.deleteLoop unavailable negativeLimit limit
        choices) state script).state ↔
      deletion.FailsBefore limit.toNat choices script state row := by
  constructor
  · exact fun left => failsBefore_of_left positive (Nat.lt_succ_self _) survives left matched
  · rintro ⟨n, executes, fails, left⟩
    obtain ⟨rest, ran⟩ := @run_deleteChunks_of_fails _ _ _ _ _ deletion _ unavailable negativeLimit
      limit positive _ n choices state script (Nat.lt_succ_self _) executes fails row left matched
    change row ∈ deletion.place.get (Session.run (deletion.deleteChunks unavailable negativeLimit
      limit _ choices) state script).state
    rwa [ran]

theorem survives_deleteLoop (limit : Int) (choices : ℕ → LimitChoice (α × ℕ)) :
    (deletion.deleteLoop unavailable negativeLimit limit choices).Survives := by
  have chunks (fuel : ℕ) (choices : ℕ → LimitChoice (α × ℕ)) :
      (deletion.deleteChunks unavailable negativeLimit limit fuel choices).Survives := by
    induction fuel generalizing choices with
    | zero => exact Session.survives_pure 0
    | succ fuel ih =>
        apply (Session.survives_statement _ _).bind
        intro rowsAffected
        split
        · exact Session.survives_pure 0
        · exact (ih _).bind fun total => Session.survives_pure _
  exact fun state script surviving => chunks _ choices state script surviving

/-- Without a limit nothing is deleted. -/
theorem keeps_deleteChunks_of_nonpos {limit : Int} (nonpos : limit ≤ 0) (start : σ) (fuel : ℕ)
    (choices : ℕ → LimitChoice (α × ℕ)) :
    (deletion.deleteChunks unavailable negativeLimit limit fuel choices).Keeps (· = start) := by
  induction fuel generalizing choices with
  | zero => exact Session.keeps_pure 0 _
  | succ fuel ih =>
      have statement : (deletion.deleteChunk unavailable negativeLimit limit (choices 0)).Keeps
          (· = start) := by
        apply Session.keeps_statement
        rintro state rowsAffected next rfl executed
        split at executed
        · contradiction
        · cases executed
          have nothing : (choices 0).pick limit.toNat (deletion.matching state) = [] := by
            rw [← List.length_eq_zero_iff, (choices 0).length_eq, (by omega : limit.toNat = 0),
              Nat.zero_min]
          simp only [nothing, Table.deleteAt_nil, deletion.place.set_get]
      apply statement.bind
      intro rowsAffected
      split
      · exact Session.keeps_pure 0 _
      · exact (ih _).bind fun total => Session.keeps_pure _ _

/-- A loop that deletes has a limit, and its first statement is executed. -/
theorem executes_of_deleted {limit : Int} {choices : ℕ → LimitChoice (α × ℕ)} {state : σ}
    {script : Script} {row : α} (stored : row ∈ deletion.place.get state)
    (deleted : row ∉ deletion.place.get (Session.run
      (deletion.deleteLoop unavailable negativeLimit limit choices) state script).state) :
    0 < limit ∧ script 0 = .succeeds := by
  constructor
  · by_contra nonpos
    have same : (Session.run (deletion.deleteLoop unavailable negativeLimit limit choices) state
        script).state = state :=
      keeps_deleteChunks_of_nonpos (by omega) state _ choices state script rfl
    rw [same] at deleted
    exact deleted stored
  · by_contra down
    rw [deleteLoop_eq, Session.run_bind, deleteChunk] at deleted
    rcases Session.run_statement_of_not_succeeds down with failed | killed
    · exact deleted (by rwa [failed])
    · exact deleted (by rwa [killed])

end Deletion

end VecnoIndexer.Sql
