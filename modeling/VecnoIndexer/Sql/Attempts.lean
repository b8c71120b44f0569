import VecnoIndexer.Sql.Session

/-!
# Statements whose errors are passed over

A caller that drops the error of a statement goes on with the next one, so what it leaves
is the effect of the statements the database executed, wherever the others stood.  A
caller that stops at the first error leaves the effect of those before it.
-/

namespace VecnoIndexer.Sql

variable {ε σ δ : Type}

/-- The outcomes left after some statements. -/
def Script.after (script : Script) (count : ℕ) : Script :=
  fun n => script (count + n)

theorem Script.after_zero (script : Script) : script.after 0 = script := by
  funext n
  exact congrArg script (Nat.zero_add n)

theorem Script.after_succ (script : Script) (count : ℕ) :
    script.after (count + 1) = script.tail.after count := by
  funext n
  exact congrArg script (Nat.add_right_comm count 1 n)

/-- Those of the statements issued that the database executes. -/
def executed : List δ → Script → List δ
  | [], _ => []
  | statement :: rest, script =>
      if script 0 = .succeeds then statement :: executed rest script.tail
      else executed rest script.tail

/-- Those before the first one that it does not execute. -/
def executedFirst : List δ → Script → List δ
  | [], _ => []
  | statement :: rest, script =>
      if script 0 = .succeeds then statement :: executedFirst rest script.tail else []

theorem executedFirst_isPrefixOf (statements : List δ) (script : Script) :
    executedFirst statements script <+: statements := by
  induction statements generalizing script with
  | nil => exact List.prefix_refl []
  | cons statement rest ih =>
      rw [executedFirst]
      by_cases succeeds : script 0 = .succeeds
      · rw [if_pos succeeds]
        exact (List.prefix_cons_inj statement).mpr (ih script.tail)
      · rw [if_neg succeeds]
        exact List.nil_prefix

/-- Issue statements one by one, whatever becomes of each. -/
def attemptEach (unavailable : ε) (effect : δ → σ → σ) : List δ → Session ε σ Unit
  | [] => pure ()
  | statement :: rest => do
      let _ignored ← (Session.statement unavailable fun state =>
        .ok ((), effect statement state)).attempt
      attemptEach unavailable effect rest

variable {unavailable : ε} {effect : δ → σ → σ}

@[simp]
theorem attemptEach_nil :
    attemptEach unavailable effect [] = (pure () : Session ε σ Unit) :=
  rfl

theorem attemptEach_append (first second : List δ) :
    attemptEach unavailable effect (first ++ second) =
      attemptEach unavailable effect first >>= fun _ =>
        attemptEach unavailable effect second := by
  induction first with
  | nil => rfl
  | cons statement rest ih =>
      simp only [List.cons_append, attemptEach, ih, Session.bind_assoc]

/-- What is left is the effect of those executed. -/
theorem done_attemptEach {statements : List δ} {state final : σ} {script rest : Script}
    (ran : Session.run (attemptEach unavailable effect statements) state script =
      .done () final rest) :
    final = (executed statements script).foldl (fun state statement => effect statement state)
      state ∧ rest = script.after statements.length := by
  induction statements generalizing state script with
  | nil =>
      cases ran
      exact ⟨rfl, (Script.after_zero rest).symm⟩
  | cons statement later ih =>
      obtain ⟨_, middle, left, firstRan, laterRan⟩ := Session.done_of_run_bind ran
      obtain ⟨finalEq, restEq⟩ := ih laterRan
      rw [Session.run_attempt, Session.run_statement] at firstRan
      rw [executed, List.length_cons, Script.after_succ]
      cases outcome : script 0 with
      | succeeds =>
          simp only [outcome] at firstRan
          cases firstRan
          exact ⟨finalEq, restEq⟩
      | fails =>
          simp only [outcome] at firstRan
          cases firstRan
          exact ⟨finalEq, restEq⟩
      | killed =>
          simp only [outcome] at firstRan
          contradiction

/-- What each of them keeps all do, executed or not. -/
theorem keeps_attemptEach {property : σ → Prop} {statements : List δ}
    (keeps : ∀ statement ∈ statements, ∀ state, property state →
      property (effect statement state)) :
    (attemptEach unavailable effect statements).Keeps property := by
  induction statements with
  | nil => exact Session.keeps_pure _ _
  | cons statement later ih =>
      refine Session.Keeps.bind (Session.Keeps.attempt (Session.keeps_statement ?_)) fun _ =>
        ih fun other isLater => keeps other (List.mem_cons_of_mem statement isLater)
      rintro state _ _ holds ⟨⟩
      exact keeps statement List.mem_cons_self state holds

end VecnoIndexer.Sql
