import Mathlib.Data.Nat.Notation

/-!
# Sessions that issue statements to a database that may fail

A session runs against a state and a script that says, statement by statement,
whether the database executes it, answers with an error, or the process dies
before it is executed.  A single statement is atomic: it either takes effect or
leaves the state as it was.  A caller may inspect an error and go on (`attempt`);
nothing survives the death of the process but the state.
-/

namespace VecnoIndexer.Sql

/-- What happens to one statement. -/
inductive Outcome where
  | succeeds
  | fails
  | killed
  deriving DecidableEq, Repr

/-- The outcomes of all statements to come. -/
abbrev Script := ℕ → Outcome

namespace Script

/-- The outcomes left after one statement. -/
def tail (script : Script) : Script :=
  fun n => script (n + 1)

/-- Every statement is executed. -/
def Up (script : Script) : Prop :=
  ∀ n, script n = .succeeds

/-- No statement is executed. -/
def Down (script : Script) : Prop :=
  ∀ n, script n ≠ .succeeds

/-- No statement is answered with an error. -/
def Unfailing (script : Script) : Prop :=
  ∀ n, script n ≠ .fails

/-- At most the first `n` statements are executed, and none after one that is
not. -/
def DownWithin : ℕ → Script → Prop
  | 0, script => script.Down
  | n + 1, script => script.Down ∨ (script 0 = .succeeds ∧ DownWithin n script.tail)

theorem Up.tail {script : Script} (up : script.Up) : script.tail.Up :=
  fun n => up (n + 1)

theorem Down.tail {script : Script} (down : script.Down) : script.tail.Down :=
  fun n => down (n + 1)

end Script

variable {ε σ α β : Type}

/-- The end of a session: a value, an error, or the death of the process, with
the state it leaves. -/
inductive Exec (ε σ α : Type) where
  | done (value : α) (state : σ) (rest : Script)
  | failed (error : ε) (state : σ) (rest : Script)
  | killed (state : σ)

/-- The state a session leaves, however it ends. -/
def Exec.state : Exec ε σ α → σ
  | done _ state _ => state
  | failed _ state _ => state
  | killed state => state

/-- A session returned. -/
def Exec.returns : Exec ε σ α → Bool
  | done _ _ _ => true
  | failed _ _ _ => false
  | killed _ => false

theorem Exec.exists_of_returns {result : Exec ε σ α} (returned : result.returns = true) :
    ∃ value state rest, result = .done value state rest := by
  cases result with
  | done value state rest => exact ⟨value, state, rest, rfl⟩
  | failed error state rest => contradiction
  | killed state => contradiction

/-- A session ended with the state it found and the database down. -/
def Exec.Untouched (result : Exec ε σ α) (state : σ) : Prop :=
  match result with
  | .done _ final rest => final = state ∧ rest.Down
  | .failed _ final rest => final = state ∧ rest.Down
  | .killed final => final = state

theorem Exec.Untouched.state_eq {result : Exec ε σ α} {state : σ}
    (untouched : result.Untouched state) : result.state = state := by
  cases result with
  | done value final rest => exact untouched.1
  | failed error final rest => exact untouched.1
  | killed final => exact untouched

/-- A computation that issues statements. -/
def Session (ε σ α : Type) :=
  σ → Script → Exec ε σ α

namespace Session

/-- Run a session against a state and a script. -/
def run (session : Session ε σ α) (state : σ) (script : Script) : Exec ε σ α :=
  session state script

/-- Sequencing stops at the first error, as `?` does. -/
instance : Monad (Session ε σ) where
  pure value := fun state script => .done value state script
  bind session next := fun state script =>
    match session state script with
    | .done value state rest => next value state rest
    | .failed error state rest => .failed error state rest
    | .killed state => .killed state

/-- End the session with an error. -/
def fail (error : ε) : Session ε σ α :=
  fun state script => .failed error state script

/-- Issue one statement. `execute` is its effect when the database executes it,
which may itself be an error; `unavailable` is the error of a database that does
not. -/
def statement (unavailable : ε) (execute : σ → Except ε (α × σ)) : Session ε σ α :=
  fun state script =>
    match script 0 with
    | .succeeds =>
        match execute state with
        | .ok (value, next) => .done value next script.tail
        | .error error => .failed error state script.tail
    | .fails => .failed unavailable state script.tail
    | .killed => .killed state

/-- Hand an error to the caller as a value. -/
def attempt (session : Session ε σ α) : Session ε σ (Except ε α) :=
  fun state script =>
    match session state script with
    | .done value state rest => .done (.ok value) state rest
    | .failed error state rest => .done (.error error) state rest
    | .killed state => .killed state

/-- The process dies, as a panic in any of its tasks makes it. -/
def die : Session ε σ α :=
  fun state _ => .killed state

/-- A value, or the death of the process by the panic that there is instead of one. -/
def orDie : Option α → Session ε σ α
  | some value => pure value
  | none => die

/-- `unwrap()`, or `unwrap_or_else` with a panic: an error ends the process. -/
def unwrap (session : Session ε σ α) : Session ε σ α :=
  fun state script =>
    match session state script with
    | .done value state rest => .done value state rest
    | .failed _ state _ => .killed state
    | .killed state => .killed state

@[simp]
theorem run_pure (value : α) (state : σ) (script : Script) :
    run (pure value : Session ε σ α) state script = .done value state script :=
  rfl

theorem run_bind (session : Session ε σ α) (next : α → Session ε σ β) (state : σ)
    (script : Script) :
    run (session >>= next) state script =
      match run session state script with
      | .done value state rest => run (next value) state rest
      | .failed error state rest => .failed error state rest
      | .killed state => .killed state :=
  rfl

theorem run_attempt (session : Session ε σ α) (state : σ) (script : Script) :
    run (attempt session) state script =
      match run session state script with
      | .done value state rest => .done (.ok value) state rest
      | .failed error state rest => .done (.error error) state rest
      | .killed state => .killed state :=
  rfl

theorem run_unwrap (session : Session ε σ α) (state : σ) (script : Script) :
    run (unwrap session) state script =
      match run session state script with
      | .done value state rest => .done value state rest
      | .failed _ state _ => .killed state
      | .killed state => .killed state :=
  rfl

theorem state_unwrap (session : Session ε σ α) (state : σ) (script : Script) :
    (run (unwrap session) state script).state = (run session state script).state := by
  rw [run_unwrap]
  cases run session state script <;> rfl

theorem state_attempt (session : Session ε σ α) (state : σ) (script : Script) :
    (run (attempt session) state script).state = (run session state script).state := by
  rw [run_attempt]
  cases run session state script <;> rfl

theorem pure_bind (value : α) (next : α → Session ε σ β) :
    (pure value >>= next : Session ε σ β) = next value :=
  rfl

theorem bind_pure (session : Session ε σ α) : (session >>= pure) = session := by
  funext state script
  change run (session >>= pure) state script = run session state script
  rw [run_bind]
  cases run session state script <;> rfl

theorem bind_assoc {γ : Type} (session : Session ε σ α) (next : α → Session ε σ β)
    (last : β → Session ε σ γ) :
    session >>= next >>= last = session >>= fun value => next value >>= last := by
  funext state script
  change run (session >>= next >>= last) state script =
    run (session >>= fun value => next value >>= last) state script
  rw [run_bind, run_bind, run_bind]
  cases run session state script <;> rfl

/-- A sequence is attempted part by part, up to the first error. -/
theorem attempt_bind (session : Session ε σ α) (next : α → Session ε σ β) :
    (session >>= next).attempt = session.attempt >>= fun first =>
      match first with
      | .ok value => (next value).attempt
      | .error error => pure (.error error) := by
  funext state script
  change run (session >>= next).attempt state script = run (session.attempt >>= _) state script
  rw [run_attempt, run_bind, run_bind, run_attempt]
  cases run session state script <;> rfl

theorem run_bind_of_done {session : Session ε σ α} {next : α → Session ε σ β}
    {state middle : σ} {script rest : Script} {value : α}
    (ran : run session state script = .done value middle rest) :
    run (session >>= next) state script = run (next value) middle rest := by
  rw [run_bind, ran]

/-- A sequence that returns has returned from both of its parts. -/
theorem done_of_run_bind {session : Session ε σ α} {next : α → Session ε σ β} {state final : σ}
    {script rest : Script} {result : β}
    (ran : run (session >>= next) state script = .done result final rest) :
    ∃ value middle left, run session state script = .done value middle left ∧
      run (next value) middle left = .done result final rest := by
  rw [run_bind] at ran
  cases first : run session state script with
  | done value middle left =>
      rw [first] at ran
      exact ⟨value, middle, left, rfl, ran⟩
  | failed _ _ _ =>
      rw [first] at ran
      contradiction
  | killed _ =>
      rw [first] at ran
      contradiction

/-- A sequence that fails has failed in one of its parts. -/
theorem failed_of_run_bind {session : Session ε σ α} {next : α → Session ε σ β} {state final : σ}
    {script rest : Script} {error : ε}
    (ran : run (session >>= next) state script = .failed error final rest) :
    run session state script = .failed error final rest ∨
      ∃ value middle left, run session state script = .done value middle left ∧
        run (next value) middle left = .failed error final rest := by
  rw [run_bind] at ran
  cases first : run session state script with
  | done value middle left =>
      rw [first] at ran
      exact Or.inr ⟨value, middle, left, rfl, ran⟩
  | failed other middle left =>
      rw [first] at ran
      cases ran
      exact Or.inl rfl
  | killed _ =>
      rw [first] at ran
      contradiction

/-- Where there is no value nothing follows. -/
theorem done_of_run_orDie {value : Option α} {next : α → Session ε σ β} {state final : σ}
    {script rest : Script} {result : β}
    (ran : run (orDie value >>= next) state script = .done result final rest) :
    ∃ found, value = some found ∧ run (next found) state script = .done result final rest := by
  cases value with
  | none => contradiction
  | some found => exact ⟨found, rfl, ran⟩

theorem failed_of_run_orDie {value : Option α} {next : α → Session ε σ β} {state final : σ}
    {script rest : Script} {error : ε}
    (ran : run (orDie value >>= next) state script = .failed error final rest) :
    ∃ found, value = some found ∧ run (next found) state script = .failed error final rest := by
  cases value with
  | none => contradiction
  | some found => exact ⟨found, rfl, ran⟩

theorem done_of_run_unwrap {session : Session ε σ α} {state final : σ} {script rest : Script}
    {value : α} (ran : run (unwrap session) state script = .done value final rest) :
    run session state script = .done value final rest := by
  rw [run_unwrap] at ran
  cases first : run session state script with
  | done _ _ _ =>
      rw [first] at ran
      exact ran
  | failed _ _ _ =>
      rw [first] at ran
      contradiction
  | killed _ =>
      rw [first] at ran
      contradiction

theorem done_of_run_attempt {session : Session ε σ α} {state final : σ} {script rest : Script}
    {value : α} (ran : run (attempt session) state script = .done (.ok value) final rest) :
    run session state script = .done value final rest := by
  rw [run_attempt] at ran
  cases first : run session state script with
  | done _ _ _ =>
      rw [first] at ran
      cases ran
      rfl
  | failed _ _ _ =>
      rw [first] at ran
      cases ran
  | killed _ =>
      rw [first] at ran
      contradiction

/-- A continuation that issues no statement leaves the state it is given. -/
theorem state_bind {session : Session ε σ α} {next : α → Session ε σ β}
    (silent : ∀ value state script, (run (next value) state script).state = state) (state : σ)
    (script : Script) :
    (run (session >>= next) state script).state = (run session state script).state := by
  rw [run_bind]
  cases run session state script with
  | done value middle rest => exact silent value middle rest
  | failed _ _ _ => rfl
  | killed _ => rfl

/-! ## One statement under a script -/

theorem run_statement (unavailable : ε) (execute : σ → Except ε (α × σ)) (state : σ)
    (script : Script) :
    run (statement unavailable execute) state script =
      match script 0 with
      | .succeeds =>
          match execute state with
          | .ok (value, next) => .done value next script.tail
          | .error error => .failed error state script.tail
      | .fails => .failed unavailable state script.tail
      | .killed => .killed state :=
  rfl

theorem run_statement_of_succeeds {unavailable : ε} {execute : σ → Except ε (α × σ)}
    {state next : σ} {script : Script} {value : α}
    (succeeds : script 0 = .succeeds) (executed : execute state = .ok (value, next)) :
    run (statement unavailable execute) state script = .done value next script.tail := by
  simp [run, statement, succeeds, executed]

/-- A statement the database does not execute leaves the state as it was. -/
theorem run_statement_of_not_succeeds {unavailable : ε}
    {execute : σ → Except ε (α × σ)} {state : σ} {script : Script}
    (down : script 0 ≠ .succeeds) :
    run (statement unavailable execute) state script =
        .failed unavailable state script.tail ∨
      run (statement unavailable execute) state script = .killed state := by
  cases outcome : script 0 with
  | succeeds => exact absurd outcome down
  | fails => exact Or.inl (by simp [run, statement, outcome])
  | killed => exact Or.inr (by simp [run, statement, outcome])

/-- A statement that returns a value was executed. -/
theorem executed_of_run_statement {unavailable : ε} {execute : σ → Except ε (α × σ)}
    {state final : σ} {script rest : Script} {value : α}
    (ran : run (statement unavailable execute) state script = .done value final rest) :
    execute state = .ok (value, final) := by
  rw [run_statement] at ran
  cases outcome : script 0 with
  | succeeds =>
      cases executed : execute state with
      | error error => simp [outcome, executed] at ran
      | ok result =>
          simp only [outcome, executed, Exec.done.injEq] at ran
          obtain ⟨rfl, rfl, _⟩ := ran
          rfl
  | fails => simp [outcome] at ran
  | killed => simp [outcome] at ran

theorem succeeds_of_run_statement {unavailable : ε} {execute : σ → Except ε (α × σ)}
    {state final : σ} {script rest : Script} {value : α}
    (ran : run (statement unavailable execute) state script = .done value final rest) :
    script 0 = .succeeds ∧ rest = script.tail := by
  rw [run_statement] at ran
  cases outcome : script 0 with
  | succeeds =>
      cases executed : execute state with
      | error error => simp [outcome, executed] at ran
      | ok result =>
          simp only [outcome, executed, Exec.done.injEq] at ran
          exact ⟨rfl, ran.2.2.symm⟩
  | fails => simp [outcome] at ran
  | killed => simp [outcome] at ran

/-- Two statements with one effect do the same where what they return is ignored. -/
theorem attempt_statement_bind {γ : Type} {unavailable : ε} {execute : σ → Except ε (α × σ)}
    {other : σ → Except ε (γ × σ)}
    (same : ∀ state, (execute state).map Prod.snd = (other state).map Prod.snd)
    (next : Session ε σ β) :
    ((statement unavailable execute).attempt >>= fun _ => next) =
      (statement unavailable other).attempt >>= fun _ => next := by
  funext state script
  change run _ state script = run _ state script
  simp only [run_bind, run_attempt, run_statement]
  have effect := same state
  cases script 0 with
  | succeeds =>
      cases first : execute state <;> cases second : other state <;>
        simp_all [Except.map]
  | fails => rfl
  | killed => rfl

/-! ## Sessions all of whose statements are executed -/

/-- Executed in full, the session returns `value` and leaves `final`. -/
def Completes (session : Session ε σ α) (state : σ) (value : α) (final : σ) : Prop :=
  ∀ script, script.Up → ∃ rest, rest.Up ∧ run session state script = .done value final rest

theorem completes_pure (value : α) (state : σ) :
    Completes (pure value : Session ε σ α) state value state :=
  fun script up => ⟨script, up, rfl⟩

theorem completes_statement {unavailable : ε} {execute : σ → Except ε (α × σ)}
    {state next : σ} {value : α} (executed : execute state = .ok (value, next)) :
    Completes (statement unavailable execute) state value next :=
  fun script up => ⟨script.tail, up.tail, run_statement_of_succeeds (up 0) executed⟩

theorem Completes.bind {session : Session ε σ α} {next : α → Session ε σ β}
    {state middle final : σ} {value : α} {result : β}
    (first : session.Completes state value middle)
    (second : (next value).Completes middle result final) :
    Completes (session >>= next) state result final := by
  intro script up
  obtain ⟨rest, restUp, ran⟩ := first script up
  rw [run_bind_of_done ran]
  exact second rest restUp

theorem Completes.unwrap {session : Session ε σ α} {state final : σ} {value : α}
    (completes : session.Completes state value final) :
    Completes (unwrap session) state value final := by
  intro script up
  obtain ⟨rest, restUp, ran⟩ := completes script up
  exact ⟨rest, restUp, by rw [run_unwrap, ran]⟩

theorem Completes.attempt {session : Session ε σ α} {state final : σ} {value : α}
    (completes : session.Completes state value final) :
    Completes (attempt session) state (.ok value) final := by
  intro script up
  obtain ⟨rest, restUp, ran⟩ := completes script up
  exact ⟨rest, restUp, by rw [run_attempt, ran]⟩

/-- One session completes in one way. -/
theorem Completes.unique {session : Session ε σ α} {state first second : σ} {value other : α}
    (firstCompletes : session.Completes state value first)
    (secondCompletes : session.Completes state other second) :
    value = other ∧ first = second := by
  obtain ⟨_, _, firstRan⟩ := firstCompletes (fun _ => .succeeds) fun _ => rfl
  obtain ⟨_, _, secondRan⟩ := secondCompletes (fun _ => .succeeds) fun _ => rfl
  rw [firstRan] at secondRan
  cases secondRan
  exact ⟨rfl, rfl⟩

/-! ## Sessions that do not survive a failed statement -/

/-- If the session returns a value, all its statements were executed. -/
def Strict (session : Session ε σ α) : Prop :=
  ∀ state script value final rest, run session state script = .done value final rest →
    session.Completes state value final

theorem strict_pure (value : α) : Strict (pure value : Session ε σ α) := by
  rintro state script _ _ _ ⟨⟩
  exact completes_pure value state

theorem strict_die : Strict (die : Session ε σ α) := by
  rintro state script _ _ _ ⟨⟩

theorem strict_fail (error : ε) : Strict (fail error : Session ε σ α) := by
  rintro state script _ _ _ ⟨⟩

theorem strict_statement (unavailable : ε) (execute : σ → Except ε (α × σ)) :
    Strict (statement unavailable execute) :=
  fun _ _ _ _ _ ran => completes_statement (executed_of_run_statement ran)

theorem Strict.unwrap {session : Session ε σ α} (strict : session.Strict) :
    Strict (unwrap session) := by
  intro state script value final rest ran
  rw [run_unwrap] at ran
  cases result : run session state script with
  | done _ _ _ =>
      rw [result] at ran
      cases ran
      exact (strict _ _ _ _ _ result).unwrap
  | failed _ _ _ =>
      rw [result] at ran
      contradiction
  | killed _ =>
      rw [result] at ran
      contradiction

theorem Strict.bind {session : Session ε σ α} {next : α → Session ε σ β}
    (first : session.Strict) (second : ∀ value, (next value).Strict) :
    Strict (session >>= next) := by
  intro state script value final rest ran
  rw [run_bind] at ran
  cases result : run session state script with
  | done middleValue middle left =>
      rw [result] at ran
      exact (first _ _ _ _ _ result).bind (second _ _ _ _ _ _ ran)
  | failed _ _ _ =>
      rw [result] at ran
      contradiction
  | killed _ =>
      rw [result] at ran
      contradiction

/-- A session that completes in one way returns in no other. -/
theorem Strict.eq_of_done {session : Session ε σ α} (strict : session.Strict)
    {state final other : σ} {value result : α} {script rest : Script}
    (completes : session.Completes state value final)
    (ran : run session state script = .done result other rest) :
    result = value ∧ other = final :=
  (strict _ _ _ _ _ ran).unique completes

/-! ## Properties kept whatever happens -/

/-- The session keeps a property of the state, however it ends. Since a death
falls between two statements, it is enough that each statement keeps it. -/
def Keeps (session : Session ε σ α) (property : σ → Prop) : Prop :=
  ∀ state script, property state → property (run session state script).state

theorem keeps_pure (value : α) (property : σ → Prop) :
    Keeps (pure value : Session ε σ α) property :=
  fun _ _ holds => holds

theorem keeps_fail (error : ε) (property : σ → Prop) :
    Keeps (fail error : Session ε σ α) property :=
  fun _ _ holds => holds

/-- What the first part leaves with the property, and the second part keeps if the first
returns, a sequence leaves with it. -/
theorem property_of_run_bind {session : Session ε σ α} {next : α → Session ε σ β}
    {property : σ → Prop} {state : σ} {script : Script}
    (first : property (run session state script).state)
    (second : ∀ value middle rest, run session state script = .done value middle rest →
      property middle → property (run (next value) middle rest).state) :
    property (run (session >>= next) state script).state := by
  rw [run_bind]
  cases ran : run session state script with
  | done value middle rest =>
      rw [ran] at first
      exact second value middle rest ran first
  | failed error middle rest =>
      rw [ran] at first
      exact first
  | killed middle =>
      rw [ran] at first
      exact first

theorem Keeps.bind {session : Session ε σ α} {next : α → Session ε σ β}
    {property : σ → Prop} (first : session.Keeps property)
    (second : ∀ value, (next value).Keeps property) :
    Keeps (session >>= next) property :=
  fun state script holds => property_of_run_bind (first state script holds)
    fun value middle rest _ => second value middle rest

theorem Keeps.attempt {session : Session ε σ α} {property : σ → Prop}
    (keeps : session.Keeps property) : Keeps (attempt session) property := by
  intro state script holds
  have kept := keeps state script holds
  rw [run_attempt]
  cases ran : run session state script <;> rw [ran] at kept <;> exact kept

theorem keeps_die (property : σ → Prop) : Keeps (die : Session ε σ α) property :=
  fun _ _ holds => holds

theorem keeps_orDie (value : Option α) (property : σ → Prop) :
    Keeps (orDie value : Session ε σ α) property := by
  cases value with
  | none => exact keeps_die property
  | some value => exact keeps_pure value property

theorem Keeps.unwrap {session : Session ε σ α} {property : σ → Prop}
    (keeps : session.Keeps property) : Keeps (unwrap session) property := by
  intro state script holds
  have kept := keeps state script holds
  rw [run_unwrap]
  cases ran : run session state script <;> rw [ran] at kept <;> exact kept

theorem keeps_statement {unavailable : ε} {execute : σ → Except ε (α × σ)}
    {property : σ → Prop}
    (keeps : ∀ state value next, property state → execute state = .ok (value, next) →
      property next) :
    Keeps (statement unavailable execute) property := by
  intro state script holds
  cases outcome : script 0 with
  | succeeds =>
      cases executed : execute state with
      | error error => simpa [run, statement, outcome, executed, Exec.state] using holds
      | ok result =>
          have kept := keeps state result.1 result.2 holds executed
          simpa [run, statement, outcome, executed, Exec.state] using kept
  | fails => simpa [run, statement, outcome, Exec.state] using holds
  | killed => simpa [run, statement, outcome, Exec.state] using holds

/-! ## Sessions while the database is down -/

/-- Under a script that is down the session leaves the state as it was, and the
database is still down when it ends. -/
def StaysDown (session : Session ε σ α) : Prop :=
  ∀ state script, script.Down → (run session state script).Untouched state

theorem staysDown_pure (value : α) : StaysDown (pure value : Session ε σ α) :=
  fun _ _ down => ⟨rfl, down⟩

theorem staysDown_orDie (value : Option α) : StaysDown (orDie value : Session ε σ α) := by
  cases value with
  | none => exact fun _ _ _ => rfl
  | some value => exact staysDown_pure value

theorem staysDown_statement (unavailable : ε) (execute : σ → Except ε (α × σ)) :
    StaysDown (statement unavailable execute) := by
  intro state script down
  rcases run_statement_of_not_succeeds (down 0) with failed | killed
  · rw [failed]
    exact ⟨rfl, down.tail⟩
  · rw [killed]
    rfl

theorem Untouched.bind {session : Session ε σ α} {next : α → Session ε σ β}
    {state : σ} {script : Script} (first : (run session state script).Untouched state)
    (second : ∀ value, (next value).StaysDown) :
    (run (session >>= next) state script).Untouched state := by
  rw [run_bind]
  cases ran : run session state script with
  | done value middle rest =>
      rw [ran] at first
      obtain ⟨rfl, down⟩ := first
      exact second value middle rest down
  | failed error middle rest =>
      rw [ran] at first
      exact first
  | killed middle =>
      rw [ran] at first
      exact first

theorem StaysDown.bind {session : Session ε σ α} {next : α → Session ε σ β}
    (first : session.StaysDown) (second : ∀ value, (next value).StaysDown) :
    StaysDown (session >>= next) :=
  fun state script down => Untouched.bind (first state script down) second

theorem Untouched.attempt {session : Session ε σ α} {state : σ} {script : Script}
    (untouched : (run session state script).Untouched state) :
    (run (Session.attempt session) state script).Untouched state := by
  rw [run_attempt]
  cases ran : run session state script <;> rw [ran] at untouched <;> exact untouched

theorem StaysDown.attempt {session : Session ε σ α} (staysDown : session.StaysDown) :
    StaysDown (attempt session) :=
  fun state script down => Untouched.attempt (staysDown state script down)

theorem staysDown_die : StaysDown (die : Session ε σ α) :=
  fun _ _ _ => rfl

end Session

end VecnoIndexer.Sql
