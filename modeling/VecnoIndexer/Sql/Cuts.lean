import VecnoIndexer.Sql.Attempts

/-!
# Sessions cut at any statement

Where the database answers every statement without an error, a session still does not run to
its end if the process dies before one of them.  Such a session is told by the number of
statements it issues, by what it returns with and leaves once all of them are executed, and by
what it leaves when it is cut before the last.
-/

namespace VecnoIndexer.Sql

/-! ## Scripts that are cut -/

namespace Script

variable {script : Script} {m n : ℕ}

/-- The first statements are executed. -/
def Executes (script : Script) (count : ℕ) : Prop :=
  ∀ n < count, script n = .succeeds

/-- Statements may fail, but the process does not die. -/
def Surviving (script : Script) : Prop :=
  ∀ n, script n ≠ .killed

/-- The first statements are executed, and the process dies before the next. -/
def cutAfter (count : ℕ) : Script :=
  fun n => if n < count then .succeeds else .killed

theorem Up.unfailing (up : script.Up) : script.Unfailing :=
  fun n fails => by simp [up n] at fails

theorem Up.surviving (up : script.Up) : script.Surviving :=
  fun n dies => by simp [up n] at dies

theorem Up.after (up : script.Up) (count : ℕ) : (script.after count).Up :=
  fun n => up (count + n)

theorem Up.executes (up : script.Up) (count : ℕ) : script.Executes count :=
  fun n _ => up n

theorem Unfailing.after (unfailing : script.Unfailing) (count : ℕ) :
    (script.after count).Unfailing :=
  fun n => unfailing (count + n)

theorem after_after (script : Script) (m n : ℕ) :
    (script.after m).after n = script.after (m + n) := by
  funext k
  exact congrArg script (Nat.add_assoc m n k).symm

theorem after_one (script : Script) : script.after 1 = script.tail := by
  rw [after_succ, after_zero]

theorem executes_zero (script : Script) : script.Executes 0 :=
  fun n below => absurd below (Nat.not_lt_zero n)

theorem executes_one_iff : script.Executes 1 ↔ script 0 = .succeeds := by
  simp [Executes]

theorem executes_add_iff :
    script.Executes (m + n) ↔ script.Executes m ∧ (script.after m).Executes n := by
  constructor
  · exact fun all => ⟨fun k below => all k (Nat.lt_add_right n below),
      fun k below => all (m + k) (Nat.add_lt_add_left below m)⟩
  · rintro ⟨first, second⟩ k below
    by_cases early : k < m
    · exact first k early
    · have later := second (k - m) (by omega)
      rwa [Script.after, Nat.add_sub_cancel' (Nat.le_of_not_lt early)] at later

theorem executes_succ_iff :
    script.Executes (n + 1) ↔ script 0 = .succeeds ∧ script.tail.Executes n := by
  rw [Nat.add_comm, executes_add_iff, executes_one_iff, after_one]

theorem executes_cutAfter_iff : (cutAfter m).Executes n ↔ n ≤ m := by
  constructor
  · intro all
    refine Nat.le_of_not_lt fun beyond => ?_
    have next := all m beyond
    simp [cutAfter] at next
  · exact fun within k below => if_pos (Nat.lt_of_lt_of_le below within)

theorem unfailing_cutAfter (count : ℕ) : (cutAfter count).Unfailing := by
  intro n
  unfold cutAfter
  split <;> simp

/-- Nothing is executed after the cut. -/
theorem down_after_cutAfter (count : ℕ) : ((cutAfter count).after count).Down := by
  intro n
  simp [Script.after, cutAfter]

end Script

namespace Session

variable {ε σ α β : Type}

/-- The session issues `count` statements and returns `value` with `final` after them; cut
before the last, it leaves `cut`. -/
def Takes (session : Session ε σ α) (state : σ) (count : ℕ) (value : α) (final : σ)
    (cut : σ → Prop) : Prop :=
  ∀ script : Script, script.Unfailing →
    (script.Executes count →
      run session state script = .done value final (script.after count)) ∧
    (¬ script.Executes count → ∃ left, run session state script = .killed left ∧ cut left)

variable {session : Session ε σ α} {next : α → Session ε σ β} {state middle final : σ}
  {m n count : ℕ} {value : α} {result : β} {cut : σ → Prop}

theorem takes_pure (value : α) (state : σ) (cut : σ → Prop) :
    Takes (pure value : Session ε σ α) state 0 value state cut := by
  refine fun script _ => ⟨fun _ => ?_, fun cutOff => absurd script.executes_zero cutOff⟩
  rw [Script.after_zero, run_pure]

theorem Takes.bind (first : session.Takes state m value middle cut)
    (second : (next value).Takes middle n result final cut) :
    Takes (session >>= next) state (m + n) result final cut := by
  intro script unfailing
  by_cases executes : script.Executes m
  · have ran := (first script unfailing).1 executes
    have rest := second (script.after m) (unfailing.after m)
    rw [run_bind_of_done ran, Script.executes_add_iff, ← Script.after_after]
    exact ⟨fun all => rest.1 all.2, fun cutOff => rest.2 fun later => cutOff ⟨executes, later⟩⟩
  · obtain ⟨left, killed, holds⟩ := (first script unfailing).2 executes
    rw [Script.executes_add_iff, run_bind, killed]
    exact ⟨fun all => absurd all.1 executes, fun _ => ⟨left, rfl, holds⟩⟩

theorem takes_statement {unavailable : ε} {execute : σ → Except ε (α × σ)}
    (executed : execute state = .ok (value, final)) (before : cut state) :
    Takes (statement unavailable execute) state 1 value final cut := by
  intro script unfailing
  rw [Script.executes_one_iff]
  constructor
  · intro succeeds
    rw [Script.after_one]
    exact run_statement_of_succeeds succeeds executed
  · intro notExecuted
    refine ⟨state, ?_, before⟩
    rw [run_statement]
    cases outcome : script 0 with
    | succeeds => exact absurd outcome notExecuted
    | fails => exact absurd outcome (unfailing 0)
    | killed => rfl

/-- A statement that is answered with an error of its own, handed over to the caller. -/
theorem takes_attempt_of_error {unavailable : ε} {execute : σ → Except ε (α × σ)} {error : ε}
    (executed : execute state = .error error) (before : cut state) :
    Takes (attempt (statement unavailable execute)) state 1 (.error error) state cut := by
  intro script unfailing
  rw [Script.executes_one_iff, run_attempt, run_statement]
  cases outcome : script 0 with
  | succeeds => exact ⟨fun _ => by simp [executed, Script.after_one],
      fun cutOff => absurd rfl cutOff⟩
  | fails => exact absurd outcome (unfailing 0)
  | killed => exact ⟨fun succeeds => absurd succeeds (by simp), fun _ => ⟨state, rfl, before⟩⟩

theorem Takes.attempt (takes : session.Takes state count value final cut) :
    Takes (attempt session) state count (.ok value) final cut := by
  intro script unfailing
  obtain ⟨finished, cutOff⟩ := takes script unfailing
  constructor
  · intro executes
    rw [run_attempt, finished executes]
  · intro notExecuted
    obtain ⟨left, killed, holds⟩ := cutOff notExecuted
    exact ⟨left, by rw [run_attempt, killed], holds⟩

theorem Takes.unwrap (takes : session.Takes state count value final cut) :
    Takes (unwrap session) state count value final cut := by
  intro script unfailing
  obtain ⟨finished, cutOff⟩ := takes script unfailing
  constructor
  · intro executes
    rw [run_unwrap, finished executes]
  · intro notExecuted
    obtain ⟨left, killed, holds⟩ := cutOff notExecuted
    exact ⟨left, by rw [run_unwrap, killed], holds⟩

theorem Takes.mono {other : σ → Prop} (takes : session.Takes state count value final cut)
    (weaker : ∀ left, cut left → other left) : session.Takes state count value final other := by
  refine fun script unfailing => ⟨(takes script unfailing).1, fun cutOff => ?_⟩
  obtain ⟨left, killed, holds⟩ := (takes script unfailing).2 cutOff
  exact ⟨left, killed, weaker left holds⟩

/-- After `count` statements the session is another one with the state `middle`; cut before, it
leaves `cut`. -/
def Leads (session : Session ε σ α) (state : σ) (count : ℕ) (later : Session ε σ α) (middle : σ)
    (cut : σ → Prop) : Prop :=
  ∀ script : Script, script.Unfailing →
    (script.Executes count →
      run session state script = run later middle (script.after count)) ∧
    (¬ script.Executes count → ∃ left, run session state script = .killed left ∧ cut left)

theorem Takes.leads (takes : session.Takes state count value middle cut)
    (next : α → Session ε σ β) : (session >>= next).Leads state count (next value) middle cut := by
  refine fun script unfailing => ⟨fun executes => ?_, fun cutOff => ?_⟩
  · exact run_bind_of_done ((takes script unfailing).1 executes)
  · obtain ⟨left, killed, holds⟩ := (takes script unfailing).2 cutOff
    exact ⟨left, by rw [run_bind, killed], holds⟩

theorem Leads.trans {later last : Session ε σ α} (first : session.Leads state m later middle cut)
    (second : later.Leads middle n last final cut) :
    session.Leads state (m + n) last final cut := by
  intro script unfailing
  obtain ⟨goesOn, cutOff⟩ := first script unfailing
  by_cases executes : script.Executes m
  · have rest := second (script.after m) (unfailing.after m)
    rw [goesOn executes, Script.executes_add_iff, ← Script.after_after]
    exact ⟨fun all => rest.1 all.2, fun notAll =>
      rest.2 fun later => notAll ⟨executes, later⟩⟩
  · rw [Script.executes_add_iff]
    exact ⟨fun all => absurd all.1 executes, fun _ => cutOff executes⟩

theorem Leads.mono {later : Session ε σ α} {other : σ → Prop}
    (leads : session.Leads state count later middle cut)
    (weaker : ∀ left, cut left → other left) : session.Leads state count later middle other := by
  refine fun script unfailing => ⟨(leads script unfailing).1, fun cutOff => ?_⟩
  obtain ⟨left, killed, holds⟩ := (leads script unfailing).2 cutOff
  exact ⟨left, killed, weaker left holds⟩

/-- Cut there, the session leaves the state it has reached. -/
theorem Leads.state_of_cutAfter {later : Session ε σ α}
    (leads : session.Leads state count later middle cut) (staysDown : later.StaysDown) :
    (run session state (Script.cutAfter count)).state = middle := by
  have executes : (Script.cutAfter count).Executes count :=
    Script.executes_cutAfter_iff.mpr (Nat.le_refl count)
  rw [(leads _ (Script.unfailing_cutAfter count)).1 executes]
  exact (staysDown middle _ (Script.down_after_cutAfter count)).state_eq

/-- Unless the process dies, and without errors of the database, the session returns `value`
and leaves the state. -/
def Reads (session : Session ε σ α) (state : σ) (value : α) : Prop :=
  ∀ script : Script, script.Unfailing → run session state script = .killed state ∨
    ∃ rest : Script, rest.Unfailing ∧ run session state script = .done value state rest

/-- A session that leaves the state as it was, cut or not, reads its value. -/
theorem Takes.reads (takes : session.Takes state count value state (· = state)) :
    session.Reads state value := by
  intro script unfailing
  by_cases executes : script.Executes count
  · exact Or.inr ⟨_, unfailing.after count, (takes script unfailing).1 executes⟩
  · obtain ⟨left, killed, rfl⟩ := (takes script unfailing).2 executes
    exact Or.inl killed

/-! ## Sessions that die with the process only -/

/-- A session ended, and the process goes on. -/
def Lives : Exec ε σ α → Prop
  | .done _ _ rest => rest.Surviving
  | .failed _ _ rest => rest.Surviving
  | .killed _ => False

/-- Only the death of the process ends the session without a result. -/
def Survives (session : Session ε σ α) : Prop :=
  ∀ state script, script.Surviving → Lives (run session state script)

theorem survives_pure (value : α) : Survives (pure value : Session ε σ α) :=
  fun _ _ surviving => surviving

theorem survives_statement (unavailable : ε) (execute : σ → Except ε (α × σ)) :
    Survives (statement unavailable execute) := by
  intro state script surviving
  have later : script.tail.Surviving := fun n => surviving (n + 1)
  rw [run_statement]
  cases outcome : script 0 with
  | fails => exact later
  | killed => exact absurd outcome (surviving 0)
  | succeeds =>
      dsimp only
      cases execute state with
      | ok result => exact later
      | error error => exact later

theorem Survives.bind {session : Session ε σ α} {next : α → Session ε σ β}
    (first : session.Survives) (second : ∀ value, (next value).Survives) :
    Survives (session >>= next) := by
  intro state script surviving
  have lives := first state script surviving
  rw [run_bind]
  cases ended : run session state script with
  | done value middle rest =>
      rw [ended] at lives
      exact second value middle rest lives
  | failed error middle rest =>
      rw [ended] at lives
      exact lives
  | killed middle =>
      rw [ended] at lives
      exact lives.elim

theorem Survives.ne_killed {session : Session ε σ α} (survives : session.Survives) {script : Script}
    (surviving : script.Surviving) (state dead : σ) : run session state script ≠ .killed dead := by
  intro killed
  have lives := survives state script surviving
  rw [killed] at lives
  exact lives

end Session

/-! ## Statements issued one by one -/

section Each

variable {ε σ δ : Type} {unavailable : ε} {effect : δ → σ → σ}

theorem takes_attemptEach {statements : List δ} {state : σ} {cut : σ → Prop}
    (cuts : ∀ first, first <+: statements →
      cut (first.foldl (fun state statement => effect statement state) state)) :
    (attemptEach unavailable effect statements).Takes state statements.length ()
      (statements.foldl (fun state statement => effect statement state) state) cut := by
  induction statements generalizing state with
  | nil => exact Session.takes_pure () state cut
  | cons statement later ih =>
      have first : (Session.statement unavailable fun state =>
          .ok ((), effect statement state)).Takes state 1 () (effect statement state) cut :=
        Session.takes_statement rfl (cuts [] List.nil_prefix)
      rw [List.length_cons, Nat.add_comm]
      refine first.attempt.bind (ih fun others isPrefix => ?_)
      exact cuts (statement :: others) ((List.prefix_cons_inj statement).mpr isPrefix)

theorem staysDown_attemptEach (statements : List δ) :
    (attemptEach unavailable effect statements : Session ε σ Unit).StaysDown := by
  induction statements with
  | nil => exact Session.staysDown_pure ()
  | cons statement later ih =>
      exact (Session.staysDown_statement _ _).attempt.bind fun _ => ih

end Each

end VecnoIndexer.Sql
