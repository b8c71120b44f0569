import VecnoIndexer.Database.Models

/-!
# The persisted checkpoint

`vars.rs`: the checkpoint is the value of one row of `vars`, read with a
fallback to the row of an earlier version and always written under the newer
key.
-/

namespace VecnoIndexer

open VecnoIndexer.Sql

def varKeyBlockCheckpoint : String := "block_checkpoint"

def varKeyLegacyCheckpoint : String := "vspc_last_start_hash"

/-- `SELECT value FROM vars WHERE key = $1`, fetching one row. -/
def selectVar (key : String) : DbM String :=
  statement fun db =>
    match db.vars.lookup key with
    | some row => .ok (row.value, db)
    | none => .error .rowNotFound

/-- `INSERT INTO vars .. ON CONFLICT (key) DO UPDATE SET value = $2`. -/
def upsertVar (key value : String) : DbM Nat :=
  statement fun db => .ok (1, { db with vars := db.vars.upsert ⟨key, value⟩ })

/-- An error of either statement reads as a missing row. -/
def loadBlockCheckpoint : DbM (Option String) := do
  match ← (selectVar varKeyBlockCheckpoint).attempt with
  | .ok blockHash => pure (some blockHash)
  | .error _ =>
      match ← (selectVar varKeyLegacyCheckpoint).attempt with
      | .ok blockHash => pure (some blockHash)
      | .error _ => pure none

def saveCheckpoint (blockHash : String) : DbM Nat :=
  upsertVar varKeyBlockCheckpoint blockHash

/-- The checkpoint stored in `vars`. -/
def Db.persistedCheckpoint (db : Db) : Option String :=
  match db.vars.lookup varKeyBlockCheckpoint with
  | some row => some row.value
  | none => (db.vars.lookup varKeyLegacyCheckpoint).map Var.value

/-- The state after a checkpoint was written. -/
def Db.withCheckpoint (db : Db) (blockHash : String) : Db :=
  { db with vars := db.vars.upsert ⟨varKeyBlockCheckpoint, blockHash⟩ }

@[simp]
theorem persistedCheckpoint_withCheckpoint (db : Db) (blockHash : String) :
    (db.withCheckpoint blockHash).persistedCheckpoint = some blockHash := by
  have rowKey : Var.primaryKey ⟨varKeyBlockCheckpoint, blockHash⟩ =
      some varKeyBlockCheckpoint := rfl
  simp [Db.persistedCheckpoint, Db.withCheckpoint, Table.lookup_upsert_self rowKey]

theorem run_saveCheckpoint_of_succeeds {blockHash : String} {db : Db} {script : Script}
    (succeeds : script 0 = .succeeds) :
    Session.run (saveCheckpoint blockHash) db script =
      .done 1 (db.withCheckpoint blockHash) script.tail := by
  unfold saveCheckpoint upsertVar
  exact Session.run_statement_of_succeeds succeeds rfl

theorem keeps_saveCheckpoint {property : Db → Prop} {blockHash : String}
    (written : ∀ db, property db → property (Db.withCheckpoint db blockHash)) :
    (saveCheckpoint blockHash).Keeps property := by
  unfold saveCheckpoint upsertVar
  apply Session.keeps_statement
  rintro db _ _ holds ⟨⟩
  exact written db holds

theorem persistedCheckpoint_congr {first second : Db} (vars : first.vars = second.vars) :
    first.persistedCheckpoint = second.persistedCheckpoint := by
  unfold Db.persistedCheckpoint
  rw [vars]

end VecnoIndexer
