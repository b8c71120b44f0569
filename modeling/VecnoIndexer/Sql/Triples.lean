import VecnoIndexer.Sql.Session

/-!
# Triples for sessions that may die

A session is described by what it needs of the state, by what it returns with, and by
what it leaves however it ends: with a value, with an error, or because the process died
between two statements.  The rules follow the ways sessions are built, so that only single
statements have to be looked at.
-/

namespace VecnoIndexer.Sql.Session

variable {ε σ α β : Type}

/-- Started with `before`, the session returns only with `after`, and always leaves `always`. -/
def Ensures (session : Session ε σ α) (before : σ → Prop) (after : α → σ → Prop)
    (always : σ → Prop) : Prop :=
  ∀ state script, before state → always (run session state script).state ∧
    ∀ value final rest, run session state script = .done value final rest → after value final

variable {before : σ → Prop} {after : α → σ → Prop} {always : σ → Prop}

theorem ensures_pure {value : α} (returns : ∀ state, before state → after value state)
    (leaves : ∀ state, before state → always state) :
    Ensures (pure value : Session ε σ α) before after always := by
  intro state script holds
  refine ⟨leaves state holds, ?_⟩
  rintro _ _ _ ⟨⟩
  exact returns state holds

theorem ensures_fail {error : ε} (leaves : ∀ state, before state → always state) :
    Ensures (fail error : Session ε σ α) before after always := by
  intro state script holds
  refine ⟨leaves state holds, ?_⟩
  rintro _ _ _ ⟨⟩

theorem ensures_die (leaves : ∀ state, before state → always state) :
    Ensures (die : Session ε σ α) before after always := by
  intro state script holds
  refine ⟨leaves state holds, ?_⟩
  rintro _ _ _ ⟨⟩

/-- A statement that is not executed leaves the state as it was. -/
theorem ensures_statement {unavailable : ε} {execute : σ → Except ε (α × σ)}
    (leaves : ∀ state, before state → always state)
    (executes : ∀ state value next, before state → execute state = .ok (value, next) →
      after value next ∧ always next) :
    Ensures (statement unavailable execute) before after always := by
  intro state script holds
  refine ⟨?_, fun value final rest ran =>
    (executes state value final holds (executed_of_run_statement ran)).1⟩
  rw [run_statement]
  cases script 0 with
  | succeeds =>
      cases executed : execute state with
      | ok result => exact (executes state result.1 result.2 holds executed).2
      | error error => exact leaves state holds
  | fails => exact leaves state holds
  | killed => exact leaves state holds

/-- The second part starts with what the first returns with. -/
theorem Ensures.bind {session : Session ε σ α} {next : α → Session ε σ β}
    {between : α → σ → Prop} {after : β → σ → Prop}
    (first : session.Ensures before between always)
    (second : ∀ value, (next value).Ensures (between value) after always) :
    Ensures (session >>= next) before after always := by
  intro state script holds
  obtain ⟨left, returned⟩ := first state script holds
  constructor
  · exact property_of_run_bind left fun value middle rest ran _ =>
      (second value middle rest (returned value middle rest ran)).1
  · intro result final rest ran
    obtain ⟨value, middle, left, firstRan, ran⟩ := done_of_run_bind ran
    exact (second value middle left (returned value middle left firstRan)).2 result final rest ran

theorem Ensures.unwrap {session : Session ε σ α} (ensures : session.Ensures before after always) :
    Ensures (unwrap session) before after always := by
  intro state script holds
  obtain ⟨left, returned⟩ := ensures state script holds
  refine ⟨?_, fun value final rest ran => returned value final rest (done_of_run_unwrap ran)⟩
  rw [state_unwrap]
  exact left

theorem Ensures.mono {session : Session ε σ α} {needed : σ → Prop} {returned : α → σ → Prop}
    {left : σ → Prop} (ensures : session.Ensures before after always)
    (needs : ∀ state, needed state → before state)
    (returns : ∀ value state, after value state → returned value state)
    (leaves : ∀ state, always state → left state) :
    session.Ensures needed returned left := by
  intro state script holds
  obtain ⟨kept, result⟩ := ensures state script (needs state holds)
  refine ⟨leaves _ kept, fun value final rest ran => ?_⟩
  exact returns value final (result value final rest ran)

/-- What a session keeps holds however it ends. -/
theorem Keeps.ensures_self {session : Session ε σ α} {property : σ → Prop}
    (keeps : session.Keeps property) :
    session.Ensures property (fun _ => property) property := by
  intro state script holds
  have kept := keeps state script holds
  refine ⟨kept, fun value final rest ran => ?_⟩
  rw [ran] at kept
  exact kept

/-- What relates the state before to every state the session leaves carries a property over. -/
theorem Keeps.ensures {session : Session ε σ α} {related : σ → σ → Prop}
    (keeps : ∀ state, session.Keeps (related state)) (starts : ∀ state, related state state)
    (returns : ∀ value state final, before state → related state final → after value final)
    (leaves : ∀ state final, before state → related state final → always final) :
    session.Ensures before after always := by
  intro state script holds
  have kept := keeps state state script (starts state)
  refine ⟨leaves state _ holds kept, fun value final rest ran => ?_⟩
  rw [ran] at kept
  exact returns value state final holds kept

end VecnoIndexer.Sql.Session
