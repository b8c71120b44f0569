import VecnoIndexer.Database.Models
import VecnoIndexer.Sql.Inserts

/-!
# Statements in pieces

The program cuts a long list into pieces and issues one statement for each; a
statement that fails ends the process.
-/

namespace VecnoIndexer

open VecnoIndexer.Sql

variable {α κ : Type}

/-- One statement for each piece, in order; an error ends the process. -/
def forPieces (execute : List α → DbM Nat) : List (List α) → DbM Nat
  | [] => pure 0
  | piece :: rest => do
      let affected ← (execute piece).unwrap
      let total ← forPieces execute rest
      pure (affected + total)

theorem strict_forPieces {execute : List α → DbM Nat} (strict : ∀ piece, (execute piece).Strict)
    (pieces : List (List α)) : (forPieces execute pieces).Strict := by
  induction pieces with
  | nil => exact Session.strict_pure 0
  | cons piece rest ih =>
      exact (strict piece).unwrap.bind fun _ => ih.bind fun _ => Session.strict_pure _

theorem keeps_forPieces {execute : List α → DbM Nat} {property : Db → Prop}
    {pieces : List (List α)} (keeps : ∀ piece ∈ pieces, (execute piece).Keeps property) :
    (forPieces execute pieces).Keeps property := by
  induction pieces with
  | nil => exact Session.keeps_pure 0 property
  | cons piece rest ih =>
      refine (keeps piece List.mem_cons_self).unwrap.bind fun _ => ?_
      refine (ih fun other otherMem => keeps other (List.mem_cons_of_mem piece otherMem)).bind ?_
      exact fun _ => Session.keeps_pure _ property

/-! ## Inserts -/

section Insert

variable {key : α → Option κ} [DecidableEq κ] {place : TableOf Db key}

/-- `INSERT .. ON CONFLICT DO NOTHING` into a table of the database. -/
def insertInto (place : TableOf Db key) (rows : List α) : DbM Nat :=
  insertRows .unavailable place rows

theorem completes_insertInto (place : TableOf Db key) (rows : List α) (db : Db) :
    ∃ count, (insertInto place rows).Completes db count (place.insert rows db) :=
  ⟨_, completes_of_executed rfl⟩

theorem keeps_insertInto {rows : List α} {property : Db → Prop}
    (frame : ∀ db, property db → property (place.insert rows db)) :
    (insertInto place rows).Keeps property := by
  unfold insertInto insertRows
  apply Session.keeps_statement
  rintro db _ _ holds ⟨⟩
  exact frame db holds

/-- Whatever the pieces, all their rows are given to the table. -/
theorem completes_insertPieces (place : TableOf Db key) (pieces : List (List α)) (db : Db) :
    ∃ count, (forPieces (insertInto place) pieces).Completes db count
      (place.insert pieces.flatten db) := by
  induction pieces generalizing db with
  | nil =>
      rw [List.flatten_nil, place.insert_nil]
      exact ⟨0, Session.completes_pure 0 db⟩
  | cons piece rest ih =>
      obtain ⟨affected, first⟩ := completes_insertInto place piece db
      obtain ⟨total, later⟩ := ih (place.insert piece db)
      rw [List.flatten_cons, place.insert_append]
      exact ⟨_, first.unwrap.bind (later.bind (Session.completes_pure _ _))⟩

theorem strict_insertPieces (place : TableOf Db key) (pieces : List (List α)) :
    (forPieces (insertInto place) pieces).Strict :=
  strict_forPieces (fun _ => strict_of_statement _) pieces

/-- Inserts that return have inserted all rows of the pieces. -/
theorem eq_of_done_insertPieces {pieces : List (List α)} {db after : Db} {total : ℕ}
    {script rest : Script}
    (ran : Session.run (forPieces (insertInto place) pieces) db script = .done total after rest) :
    after = place.insert pieces.flatten db := by
  obtain ⟨count, completes⟩ := completes_insertPieces place pieces db
  exact ((strict_insertPieces place pieces).eq_of_done completes ran).2

end Insert

end VecnoIndexer
