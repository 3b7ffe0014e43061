/-
  EasyGameServer.DbHelper

  The prepared statements of `DbHelper.cpp` and `SQLStatement.h`, and the four
  `OnExecute` functions as they use them: parameters are bound by position,
  columns are read by position, and nothing checks that the positions agree.

  A statement is what SQLite makes of its text on the table
  `players(pid, name, pos_x, pos_y, pos_z, comment)`.  A value of a type its
  place does not take makes the statement fail; SQLite would convert it, and
  the jobs never bind one.  A statement that cannot be prepared ends the process.
-/

import EasyGameServer.DatabaseJobContext

namespace EasyGameServer

open Lib

-- ============================================================================
-- Statements
-- ============================================================================

inductive SqlValue where
  | null
  | integer (value : Int32)
  | real (value : CDouble)
  | text (value : List UInt8)

/-- The columns of `players` after its key. -/
inductive Column where
  | name
  | posX
  | posY
  | posZ
  | comment

/-- Their order in the table. -/
def Column.all : List Column := [.name, .posX, .posY, .posZ, .comment]

namespace PlayerRow

def column (row : PlayerRow) : Column → SqlValue
  | .name => .text row.name
  | .posX => .real row.posX
  | .posY => .real row.posY
  | .posZ => .real row.posZ
  | .comment => .text row.comment

def setColumn (row : PlayerRow) : Column → SqlValue → Option PlayerRow
  | .name, .text v => some { row with name := v }
  | .posX, .real v => some { row with posX := storedDouble v }
  | .posY, .real v => some { row with posY := storedDouble v }
  | .posZ, .real v => some { row with posZ := storedDouble v }
  | .comment, .text v => some { row with comment := v }
  | _, _ => none

/-- Assign values to columns, from left to right. -/
def setColumns (row : PlayerRow) : List Column → List SqlValue → Option PlayerRow
  | [], [] => some row
  | c :: cs, v :: vs => (row.setColumn c v).bind (fun row' => row'.setColumns cs vs)
  | _, _ => none

end PlayerRow

inductive SqlStatement where
  /-- `INSERT INTO players VALUES(?, …)`, with that many question marks. -/
  | insert (values : Nat)
  /-- `SELECT columns FROM players WHERE pid=?`. -/
  | select (columns : List Column)
  /-- `UPDATE players SET column=?, … WHERE pid=?`. -/
  | update (columns : List Column)
  /-- `DELETE FROM players WHERE pid=?`. -/
  | delete

def SQL_InsertTest : SqlStatement := .insert 6

def SQL_SelectTest : SqlStatement := .select [.name, .posX, .posY, .posZ]

def SQL_UpdateTest : SqlStatement := .update [.posX, .posY, .posZ, .comment]

def SQL_DeleteTest : SqlStatement := .delete

/-- How many question marks a statement has. -/
def SqlStatement.parameters : SqlStatement → Nat
  | .insert values => values
  | .select _ => 1
  | .update columns => columns.length + 1
  | .delete => 1

/-- What a step of a statement comes to. -/
inductive SqlResult where
  | error
  | row (values : List SqlValue)
  | done

/-- Run a statement with these values for its question marks, in their order. -/
def SqlStatement.run (stmt : SqlStatement) (params : List SqlValue) (db : Players) :
    SqlResult × Players :=
  match stmt with
  | .insert _ =>
      match params with
      | .integer pid :: values =>
          match db pid, (PlayerRow.mk [] 0 0 0 []).setColumns Column.all values with
          | none, some row => (.done, db.set pid (some row))
          | _, _ => (.error, db)
      | _ => (.error, db)
  | .select columns =>
      match params with
      | [.integer pid] =>
          match db pid with
          | some row => (.row (columns.map row.column), db)
          | none => (.done, db)
      | _ => (.error, db)
  | .update columns =>
      match params.getLast? with
      | some (.integer pid) =>
          match db pid with
          | none => (.done, db)
          | some row =>
              match row.setColumns columns params.dropLast with
              | some row' => (.done, db.set pid (some row'))
              | none => (.error, db)
      | _ => (.error, db)
  | .delete =>
      match params with
      | [.integer pid] => (.done, db.set pid none)
      | _ => (.error, db)

/-- `sqlite3_stmt`: a statement, what is bound to its question marks and the
    row it stands on. -/
structure Sqlite3Stmt where
  sql : SqlStatement
  params : List SqlValue
  row : List SqlValue

namespace Sqlite3Stmt

/-- What `sqlite3_prepare_v2` makes, if it does not fail: nothing is bound yet. -/
def prepare (sql : SqlStatement) : Sqlite3Stmt where
  sql := sql
  params := List.replicate sql.parameters .null
  row := []

/-- `sqlite3_bind_*`: the first question mark has index 1. -/
def bind (stmt : Sqlite3Stmt) (index : Nat) (value : SqlValue) : Bool × Sqlite3Stmt :=
  if 0 < index ∧ index ≤ stmt.params.length then
    (true, { stmt with params := stmt.params.set (index - 1) value })
  else (false, stmt)

end Sqlite3Stmt

-- ============================================================================
-- DbHelper
-- ============================================================================

inductive RESULT_TYPE where
  | RESULT_ERROR
  | RESULT_ROW
  | RESULT_DONE

structure DbHelper where
  mResult : Sqlite3Stmt
  mResultColCount : Nat
  mBindColCount : Nat
  mResultCurrentCol : Nat

namespace DbHelper

/-- `none` when `sqlite3_prepare_v2` fails and `CRASH_ASSERT(false)` ends the
    process. -/
def new (sql : SqlStatement) (prepared : Bool) : Option DbHelper :=
  if prepared then
    some {
      mResult := .prepare sql
      mResultColCount := 0
      mBindColCount := 0
      mResultCurrentCol := 0 }
  else none

/-- What the three `BindParam` functions share: the next question mark. -/
def bindParam (h : DbHelper) (value : SqlValue) : Bool × DbHelper :=
  let r := h.mResult.bind (h.mBindColCount + 1) value
  (r.1, { h with mResult := r.2, mBindColCount := h.mBindColCount + 1 })

def bindParamInt (h : DbHelper) (param : Int32) : Bool × DbHelper :=
  h.bindParam (.integer param)

def bindParamDouble (h : DbHelper) (param : CDouble) : Bool × DbHelper :=
  h.bindParam (.real param)

/-- The length that is passed is not used. -/
def bindParamText {n : Nat} (h : DbHelper) (text : CString n) (_count : Nat) :
    Bool × DbHelper :=
  h.bindParam (.text text.text)

def fetchRow (h : DbHelper) (db : Players) (ioError : Bool) : RESULT_TYPE × DbHelper × Players :=
  if ioError then
    (.RESULT_ERROR, h, db)
  else
    match h.mResult.sql.run h.mResult.params db with
    | (.error, db') => (.RESULT_ERROR, h, db')
    | (.done, db') => (.RESULT_DONE, h, db')
    | (.row values, db') =>
        (.RESULT_ROW,
          { h with
            mResult := { h.mResult with row := values }
            mResultColCount := values.length
            mResultCurrentCol := 0 },
          db')

/-- What the `GetResultParam` functions share: the next column, read as one
    type.  `none` when the assertion on the cursor ends the process, and for a
    column of another type, which SQLite would convert. -/
def getResultParam {α : Type} (read : SqlValue → Option α) (h : DbHelper) :
    Option (α × DbHelper) :=
  if h.mResultCurrentCol < h.mResultColCount then
    (h.mResult.row[h.mResultCurrentCol]?.bind read).map
      (fun v => (v, { h with mResultCurrentCol := h.mResultCurrentCol + 1 }))
  else none

def getResultParamDouble (h : DbHelper) : Option (CDouble × DbHelper) :=
  h.getResultParam fun
    | .real v => some v
    | _ => none

/-- The text with its terminator. -/
def getResultParamText (h : DbHelper) : Option (List UInt8 × DbHelper) :=
  h.getResultParam fun
    | .text v => some (v ++ [0])
    | _ => none

end DbHelper

-- ============================================================================
-- OnExecute
-- ============================================================================

/-- `none` when `strcpy_s` or an assertion ends the process. -/
def LoadPlayerDataContext.onExecute (job : LoadPlayerDataContext) (db : Players)
    (prepared ioError : Bool) : Option (Bool × LoadPlayerDataContext × Players) := do
  let dbhelper ← DbHelper.new SQL_SelectTest prepared
  let dbhelper := (dbhelper.bindParamInt job.mPlayerId).2
  match dbhelper.fetchRow db ioError with
  | (.RESULT_ROW, dbhelper, db) =>
      let (name, dbhelper) ← dbhelper.getResultParamText
      let (x, dbhelper) ← dbhelper.getResultParamDouble
      let (y, dbhelper) ← dbhelper.getResultParamDouble
      let (z, _) ← dbhelper.getResultParamDouble
      let mPlayerName ← strcpyS job.mPlayerName name
      some (true,
        { job with mPosX := x, mPosY := y, mPosZ := z, mPlayerName := mPlayerName }, db)
  | (_, _, db) => some (false, job, db)

def CreatePlayerDataContext.onExecute (job : CreatePlayerDataContext) (db : Players)
    (prepared ioError : Bool) : Option (Bool × Players) := do
  let dbhelper ← DbHelper.new SQL_InsertTest prepared
  let dbhelper := (dbhelper.bindParamInt job.mPlayerId).2
  let dbhelper := (dbhelper.bindParamText job.mPlayerName job.mPlayerName.text.length).2
  let dbhelper := (dbhelper.bindParamDouble job.mPosX).2
  let dbhelper := (dbhelper.bindParamDouble job.mPosY).2
  let dbhelper := (dbhelper.bindParamDouble job.mPosZ).2
  let dbhelper := (dbhelper.bindParamText job.mComment job.mComment.text.length).2
  match dbhelper.fetchRow db ioError with
  | (.RESULT_ERROR, _, db) => some (false, db)
  | (_, _, db) => some (true, db)

def DeletePlayerDataContext.onExecute (job : DeletePlayerDataContext) (db : Players)
    (prepared ioError : Bool) : Option (Bool × Players) := do
  let dbhelper ← DbHelper.new SQL_DeleteTest prepared
  let dbhelper := (dbhelper.bindParamInt job.mPlayerId).2
  match dbhelper.fetchRow db ioError with
  | (.RESULT_ERROR, _, db) => some (false, db)
  | (_, _, db) => some (true, db)

def UpdatePlayerDataContext.onExecute (job : UpdatePlayerDataContext) (db : Players)
    (prepared ioError : Bool) : Option (Bool × Players) := do
  let dbhelper ← DbHelper.new SQL_UpdateTest prepared
  let dbhelper := (dbhelper.bindParamDouble job.mPosX).2
  let dbhelper := (dbhelper.bindParamDouble job.mPosY).2
  let dbhelper := (dbhelper.bindParamDouble job.mPosZ).2
  let dbhelper := (dbhelper.bindParamText job.mComment job.mComment.text.length).2
  let dbhelper := (dbhelper.bindParamInt job.mPlayerId).2
  match dbhelper.fetchRow db ioError with
  | (.RESULT_ERROR, _, db) => some (false, db)
  | (_, _, db) => some (true, db)

/-- The virtual call `jobContext->OnExecute()`. -/
def DatabaseJobContext.callOnExecute (job : DatabaseJobContext) (db : Players)
    (prepared ioError : Bool) : Option (Bool × DatabaseJobContext × Players) :=
  match job.data with
  | .load c =>
      (c.onExecute db prepared ioError).map
        (fun r => (r.1, { job with data := .load r.2.1 }, r.2.2))
  | .create c => (c.onExecute db prepared ioError).map (fun r => (r.1, job, r.2))
  | .delete c => (c.onExecute db prepared ioError).map (fun r => (r.1, job, r.2))
  | .update c => (c.onExecute db prepared ioError).map (fun r => (r.1, job, r.2))

-- ============================================================================
-- The positions agree
-- ============================================================================

namespace DbHelper

/-- The helper once these values have been bound, in this order. -/
def bound (sql : SqlStatement) (values : List SqlValue) : DbHelper where
  mResult := ⟨sql, values ++ List.replicate (sql.parameters - values.length) .null, []⟩
  mResultColCount := 0
  mBindColCount := values.length
  mResultCurrentCol := 0

theorem bindParam_bound {sql : SqlStatement} {values : List SqlValue} (value : SqlValue)
    (h : values.length < sql.parameters) :
    ((bound sql values).bindParam value).2 = bound sql (values ++ [value]) := by
  obtain ⟨n, hn⟩ := Nat.exists_eq_add_of_lt h
  have hrest : sql.parameters - values.length = n + 1 := by omega
  have hrest' : sql.parameters - (values.length + 1) = n := by omega
  simp [bound, bindParam, Sqlite3Stmt.bind, hrest, hrest', List.replicate_succ]

/-- Bind these values, one after another. -/
def bindAll (h : DbHelper) (values : List SqlValue) : DbHelper :=
  values.foldl (fun h value => (h.bindParam value).2) h

theorem bindAll_bound {sql : SqlStatement} (before values : List SqlValue)
    (h : (before ++ values).length ≤ sql.parameters) :
    (bound sql before).bindAll values = bound sql (before ++ values) := by
  induction values generalizing before with
  | nil => rw [List.append_nil]; rfl
  | cons value rest ih =>
      rw [List.length_append, List.length_cons] at h
      have hnext := ih (before ++ [value]) (by simp; omega)
      rw [List.append_assoc] at hnext
      rw [← bindParam_bound value (by omega)] at hnext
      exact hnext

theorem new_prepared (sql : SqlStatement) : new sql true = some (bound sql []) := rfl

/-- With every question mark bound, the statement runs on what was bound. -/
theorem fetchRow_bindAll (sql : SqlStatement) (values : List SqlValue) (db : Players)
    (h : values.length = sql.parameters) :
    ((bound sql []).bindAll values).fetchRow db false =
      match sql.run values db with
      | (.error, db') => (.RESULT_ERROR, bound sql values, db')
      | (.done, db') => (.RESULT_DONE, bound sql values, db')
      | (.row row, db') =>
          (.RESULT_ROW, ⟨⟨sql, values, row⟩, row.length, values.length, 0⟩, db') := by
  have hbound : (bound sql []).bindAll values = bound sql values :=
    bindAll_bound [] values (Nat.le_of_eq h)
  rw [hbound]
  simp [fetchRow, bound, h]

end DbHelper

theorem run_insertTest (db : Players) (pid : Int32) (name : List UInt8) (x y z : CDouble)
    (comment : List UInt8) :
    SQL_InsertTest.run [.integer pid, .text name, .real x, .real y, .real z, .text comment] db
      = (if (db.sqlInsertTest pid name x y z comment).1 then .done else .error,
          (db.sqlInsertTest pid name x y z comment).2) := by
  cases hrow : db pid with
  | none => simp [SQL_InsertTest, SqlStatement.run, Players.sqlInsertTest, hrow, Column.all,
      PlayerRow.setColumns, PlayerRow.setColumn]
  | some row => simp [SQL_InsertTest, SqlStatement.run, Players.sqlInsertTest, hrow]

theorem run_selectTest (db : Players) (pid : Int32) :
    SQL_SelectTest.run [.integer pid] db
      = (match db.sqlSelectTest pid with
          | some row => .row [.text row.name, .real row.posX, .real row.posY, .real row.posZ]
          | none => .done,
          db) := by
  cases hrow : db pid with
  | none => simp [SQL_SelectTest, SqlStatement.run, Players.sqlSelectTest, hrow]
  | some row => simp [SQL_SelectTest, SqlStatement.run, Players.sqlSelectTest, hrow,
      PlayerRow.column]

theorem run_updateTest (db : Players) (x y z : CDouble) (comment : List UInt8) (pid : Int32) :
    SQL_UpdateTest.run [.real x, .real y, .real z, .text comment, .integer pid] db
      = (.done, db.sqlUpdateTest x y z comment pid) := by
  cases hrow : db pid with
  | none => simp [SQL_UpdateTest, SqlStatement.run, Players.sqlUpdateTest, hrow]
  | some row => simp [SQL_UpdateTest, SqlStatement.run, Players.sqlUpdateTest, hrow,
      PlayerRow.setColumns, PlayerRow.setColumn]

theorem run_deleteTest (db : Players) (pid : Int32) :
    SQL_DeleteTest.run [.integer pid] db = (.done, db.sqlDeleteTest pid) := rfl

/-- A select by the job's player id, read column by column. -/
theorem LoadPlayerDataContext.onExecute_eq (job : LoadPlayerDataContext) (db : Players) :
    job.onExecute db true false =
      match db.sqlSelectTest job.mPlayerId with
      | none => some (false, job, db)
      | some row =>
          (strcpyS job.mPlayerName (row.name ++ [0])).map (fun name =>
            (true,
              { job with
                mPosX := row.posX
                mPosY := row.posY
                mPosZ := row.posZ
                mPlayerName := name },
              db)) := by
  have hfetch := DbHelper.fetchRow_bindAll SQL_SelectTest [.integer job.mPlayerId] db rfl
  rw [run_selectTest] at hfetch
  simp only [DbHelper.bindAll, List.foldl] at hfetch
  simp only [LoadPlayerDataContext.onExecute, DbHelper.new_prepared, Option.bind_eq_bind,
    Option.bind_some, DbHelper.bindParamInt, hfetch]
  cases db.sqlSelectTest job.mPlayerId with
  | none => rfl
  | some row => exact Option.map_eq_bind.symm

/-- An insert of what the job holds, under its player id. -/
theorem CreatePlayerDataContext.onExecute_eq (job : CreatePlayerDataContext) (db : Players) :
    job.onExecute db true false = some (db.sqlInsertTest job.mPlayerId job.mPlayerName.text
      job.mPosX job.mPosY job.mPosZ job.mComment.text) := by
  have hfetch := DbHelper.fetchRow_bindAll SQL_InsertTest [.integer job.mPlayerId,
    .text job.mPlayerName.text, .real job.mPosX, .real job.mPosY, .real job.mPosZ,
    .text job.mComment.text] db rfl
  rw [run_insertTest] at hfetch
  simp only [DbHelper.bindAll, List.foldl] at hfetch
  simp only [CreatePlayerDataContext.onExecute, DbHelper.new_prepared, Option.bind_eq_bind,
    Option.bind_some, DbHelper.bindParamInt, DbHelper.bindParamText, DbHelper.bindParamDouble,
    hfetch]
  cases db.sqlInsertTest job.mPlayerId job.mPlayerName.text job.mPosX job.mPosY job.mPosZ
    job.mComment.text with
  | mk ok db' => cases ok <;> rfl

theorem DeletePlayerDataContext.onExecute_eq (job : DeletePlayerDataContext) (db : Players) :
    job.onExecute db true false = some (true, db.sqlDeleteTest job.mPlayerId) := by
  have hfetch := DbHelper.fetchRow_bindAll SQL_DeleteTest [.integer job.mPlayerId] db rfl
  rw [run_deleteTest] at hfetch
  simp only [DbHelper.bindAll, List.foldl] at hfetch
  simp only [DeletePlayerDataContext.onExecute, DbHelper.new_prepared, Option.bind_eq_bind,
    Option.bind_some, DbHelper.bindParamInt, hfetch]

theorem UpdatePlayerDataContext.onExecute_eq (job : UpdatePlayerDataContext) (db : Players) :
    job.onExecute db true false = some (true, db.sqlUpdateTest job.mPosX job.mPosY job.mPosZ
      job.mComment.text job.mPlayerId) := by
  have hfetch := DbHelper.fetchRow_bindAll SQL_UpdateTest [.real job.mPosX, .real job.mPosY,
    .real job.mPosZ, .text job.mComment.text, .integer job.mPlayerId] db rfl
  rw [run_updateTest] at hfetch
  simp only [DbHelper.bindAll, List.foldl] at hfetch
  simp only [UpdatePlayerDataContext.onExecute, DbHelper.new_prepared, Option.bind_eq_bind,
    Option.bind_some, DbHelper.bindParamInt, DbHelper.bindParamText, DbHelper.bindParamDouble,
    hfetch]

/-- No job survives a statement that cannot be prepared. -/
theorem DatabaseJobContext.callOnExecute_unprepared (job : DatabaseJobContext) (db : Players)
    (ioError : Bool) : job.callOnExecute db false ioError = none := by
  obtain ⟨mSockKey, mSuccess, data⟩ := job
  cases data with
  | load c => rfl
  | create c => rfl
  | delete c => rfl
  | update c => rfl

/-- Through `DbHelper`, `OnExecute` does what the statements say of each job. -/
theorem DatabaseJobContext.callOnExecute_eq (job : DatabaseJobContext) (db : Players)
    (ioError : Bool) : job.callOnExecute db true ioError = job.onExecute db ioError := by
  obtain ⟨mSockKey, mSuccess, data⟩ := job
  cases ioError with
  | true => cases data <;> rfl
  | false =>
      cases data with
      | load c =>
          simp only [callOnExecute, onExecute, c.onExecute_eq]
          cases db.sqlSelectTest c.mPlayerId with
          | none => rfl
          | some row => exact (Option.map_map ..).trans Option.map_eq_bind
      | create c =>
          simp only [callOnExecute, onExecute, c.onExecute_eq]
          rfl
      | delete c =>
          simp only [callOnExecute, onExecute, c.onExecute_eq]
          rfl
      | update c =>
          simp only [callOnExecute, onExecute, c.onExecute_eq]
          rfl

end EasyGameServer
