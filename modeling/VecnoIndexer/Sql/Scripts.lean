import VecnoIndexer.Sql.Session

/-!
# Scripts of statements

A script issues statements one by one, and each is committed on its own.  It may be cut
off after any number of them, by an error of the database, by the death of the process
or by an error of a statement itself.
-/

namespace VecnoIndexer.Sql

variable {ε σ δ : Type}

/-- Issue statements one by one. -/
def executeEach (unavailable : ε) (execute : δ → σ → Except ε σ) : List δ → Session ε σ Unit
  | [] => pure ()
  | statement :: rest => do
      Session.statement unavailable fun state =>
        (execute statement state).map fun next => ((), next)
      executeEach unavailable execute rest

/-- The state after statements that are all issued; one that errs ends the script. -/
def applyEach (execute : δ → σ → Except ε σ) : List δ → σ → σ
  | [], state => state
  | statement :: rest, state =>
      match execute statement state with
      | .ok next => applyEach execute rest next
      | .error _ => state

variable {unavailable : ε} {execute : δ → σ → Except ε σ}

/-- A script stops where the database does not execute a statement, or ends by itself. -/
theorem state_executeEach (statements : List δ) (state : σ) (script : Script) :
    ∃ count, (∀ n < count, script n = .succeeds) ∧
      ((script count ≠ .succeeds ∧
          (Session.run (executeEach unavailable execute statements) state script).state =
            applyEach execute (statements.take count) state) ∨
        (Session.run (executeEach unavailable execute statements) state script).state =
          applyEach execute statements state) := by
  induction statements generalizing state script with
  | nil => exact ⟨0, fun _ impossible => absurd impossible (Nat.not_lt_zero _), Or.inr rfl⟩
  | cons statement rest ih =>
      by_cases succeeds : script 0 = .succeeds
      · cases executed : execute statement state with
        | error error =>
            refine ⟨0, fun _ impossible => absurd impossible (Nat.not_lt_zero _), Or.inr ?_⟩
            simp [executeEach, applyEach, executed, Session.run_bind, Session.run_statement,
              succeeds, Except.map, Exec.state]
        | ok next =>
            obtain ⟨count, earlier, ended⟩ := ih next script.tail
            have continues : Session.run (executeEach unavailable execute (statement :: rest))
                state script = Session.run (executeEach unavailable execute rest) next
                  script.tail :=
              Session.run_bind_of_done (Session.run_statement_of_succeeds succeeds
                (by rw [executed]; rfl))
            refine ⟨count + 1, fun n below => ?_, ?_⟩
            · cases n with
              | zero => exact succeeds
              | succ n => exact earlier n (Nat.lt_of_succ_lt_succ below)
            · rw [continues]
              simp only [List.take_succ_cons, applyEach, executed]
              exact ended
      · refine ⟨0, fun _ impossible => absurd impossible (Nat.not_lt_zero _),
          Or.inl ⟨succeeds, ?_⟩⟩
        unfold executeEach
        rw [Session.run_bind]
        rcases Session.run_statement_of_not_succeeds succeeds with failed | killed
        · rw [failed]
          rfl
        · rw [killed]
          rfl

/-- A script that returned was executed in full. -/
theorem done_executeEach {statements : List δ} {state final : σ} {script rest : Script}
    (ran : Session.run (executeEach unavailable execute statements) state script =
      .done () final rest) :
    (∀ n < statements.length, script n = .succeeds) ∧
      final = applyEach execute statements state ∧
        ∀ n, rest n = script (statements.length + n) := by
  induction statements generalizing state script with
  | nil =>
      cases ran
      exact ⟨fun _ impossible => absurd impossible (Nat.not_lt_zero _), rfl,
        fun n => (congrArg rest (Nat.zero_add n)).symm⟩
  | cons statement later ih =>
      obtain ⟨_, middle, left, firstRan, ran⟩ := Session.done_of_run_bind ran
      obtain ⟨succeeded, finalEq, restEq⟩ := ih ran
      have executed := Session.executed_of_run_statement firstRan
      obtain ⟨first, rfl⟩ := Session.succeeds_of_run_statement firstRan
      refine ⟨fun n below => ?_, ?_, fun n => ?_⟩
      · cases n with
        | zero => exact first
        | succ n => exact succeeded n (Nat.lt_of_succ_lt_succ below)
      · cases applied : execute statement state with
        | error error =>
            rw [applied] at executed
            contradiction
        | ok next =>
            rw [applied] at executed
            cases executed
            simp only [applyEach, applied]
            exact finalEq
      · rw [restEq n, List.length_cons, Nat.add_right_comm]
        rfl

end VecnoIndexer.Sql
