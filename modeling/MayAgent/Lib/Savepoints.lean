import Mathlib.Data.List.Basic

/-!
# Transactions with named savepoints

The transaction statements of SQLite over an arbitrary kind of data. A savepoint remembers the data
at the moment it was set; names may repeat, and a statement that names a savepoint means the latest
one of that name.
-/

namespace MayAgent

/-- A database: its data, the data at the start of the open transaction and the savepoints set
since, latest first. -/
structure Database (D : Type) where
  data : D
  transaction : Option D
  savepoints : List (String × D)

namespace Database

variable {D : Type}

structure Idle (db : Database D) : Prop where
  transaction : db.transaction = none
  savepoints : db.savepoints = []

/-- `BEGIN IMMEDIATE` -/
def begin (db : Database D) : Except String (Database D) :=
  if db.transaction.isSome then .error "cannot start a transaction within a transaction"
  else .ok { db with transaction := some db.data }

/-- `SAVEPOINT name`, inside a transaction. -/
def savepoint (db : Database D) (name : String) : Database D :=
  { db with savepoints := (name, db.data) :: db.savepoints }

/-- `RELEASE name` -/
def release (db : Database D) (name : String) : Except String (Database D) :=
  match db.savepoints.dropWhile (·.1 != name) with
  | [] => .error ("no such savepoint: " ++ name)
  | _ :: older => .ok { db with savepoints := older }

/-- `ROLLBACK TO name`: the savepoint itself stays. -/
def rollbackTo (db : Database D) (name : String) : Except String (Database D) :=
  match db.savepoints.dropWhile (·.1 != name) with
  | [] => .error ("no such savepoint: " ++ name)
  | (_, data) :: older => .ok { db with data := data, savepoints := (name, data) :: older }

/-- `COMMIT` -/
def commit (db : Database D) : Except String (Database D) :=
  if db.transaction.isNone then .error "cannot commit - no transaction is active"
  else .ok { db with transaction := none, savepoints := [] }

/-- `ROLLBACK` -/
def rollback (db : Database D) : Except String (Database D) :=
  match db.transaction with
  | none => .error "cannot rollback - no transaction is active"
  | some data => .ok { data := data, transaction := none, savepoints := [] }

/-- The database with other data, as a statement outside the transaction control leaves it. -/
def setData (db : Database D) (data : D) : Database D := { db with data := data }

variable (db : Database D)

@[simp]
theorem setData_data (data : D) : (db.setData data).data = data := rfl

@[simp]
theorem setData_setData (data data' : D) : (db.setData data).setData data' = db.setData data' := rfl

@[simp]
theorem setData_self : db.setData db.data = db := rfl

/-- Releasing the latest savepoint keeps what was written since. -/
@[simp]
theorem release_savepoint (name : String) (data : D) :
    ((db.savepoint name).setData data).release name = .ok (db.setData data) := by
  simp [release, savepoint, setData]

@[simp]
theorem rollbackTo_savepoint (name : String) (data : D) :
    ((db.savepoint name).setData data).rollbackTo name = .ok (db.savepoint name) := by
  simp [rollbackTo, savepoint, setData]

@[simp]
theorem release_savepoint_self (name : String) : (db.savepoint name).release name = .ok db :=
  release_savepoint db name db.data

theorem Idle.begin {db : Database D} (h : db.Idle) : db.begin = .ok { db with transaction := some db.data } := by
  simp [Database.begin, h.transaction]

theorem Idle.commit {db : Database D} (h : db.Idle) (data : D) :
    ({ db with transaction := some db.data }.setData data).commit = .ok (db.setData data) := by
  simp [Database.commit, setData, h.transaction, h.savepoints]

theorem Idle.rollback {db : Database D} (h : db.Idle) (data : D) :
    ({ db with transaction := some db.data }.setData data).rollback = .ok db := by
  obtain ⟨_, transaction, _⟩ := db
  obtain ⟨htransaction, hsavepoints⟩ := h
  cases htransaction
  cases hsavepoints
  rfl

end Database

end MayAgent
