/-
  EasyGameServer.DatabaseJobContext

  The database jobs of `DatabaseJobContext.h` / `DatabaseJobContext.cpp` and
  what their statements in `SQLStatement.h` do to the table of players, whose
  key is the player id.  Parameters are bound by position: each statement
  below takes its parameters in the order of its question marks.

  A statement may fail for reasons outside the model (`ioError`); it then
  changes nothing.  `double` values are only moved and converted, so they are
  bit patterns; SQLite keeps all of them but NaNs and −0.
-/

import EasyGameServer.ClientSession.Basic
import EasyGameServer.Lib.Ieee

namespace EasyGameServer

open Lib

/-- The bit pattern of a C `double`. -/
abbrev CDouble := UInt64

/-! ## The table -/

/-- What is read back of a `double` from a column of type `float`: SQLite binds
    a NaN as NULL, which reads as 0, and stores −0 as the integer 0. -/
def storedDouble (d : CDouble) : CDouble := if irregularDouble d then 0 else d

@[simp] theorem storedDouble_zero : storedDouble 0 = 0 := by decide

/-- What comes of a `float` that is widened, stored, read and narrowed. -/
def storedFloat (f : CFloat) : CFloat := if irregularFloat f then 0 else f

theorem doubleToFloat_storedDouble (f : CFloat) :
    doubleToFloat (storedDouble (floatToDouble f)) = storedFloat f := by
  have hzero : doubleToFloat 0 = 0 := by decide
  rw [storedDouble, irregularDouble_floatToDouble, storedFloat]
  cases hf : irregularFloat f with
  | true => rw [if_pos rfl, if_pos rfl, hzero]
  | false =>
      rw [if_neg Bool.false_ne_true, if_neg Bool.false_ne_true, doubleToFloat_floatToDouble,
        quiet_of_regular hf]

/-- A row of `players`, its key aside. -/
structure PlayerRow where
  name : List UInt8
  posX : CDouble
  posY : CDouble
  posZ : CDouble
  comment : List UInt8

abbrev Players := Int32 → Option PlayerRow

namespace Players

def set (db : Players) (pid : Int32) (row : Option PlayerRow) : Players :=
  fun p => if p = pid then row else db p

/-- `INSERT INTO players VALUES(?, ?, ?, ?, ?, ?)`; false when the key is taken. -/
def sqlInsertTest (db : Players) (pid : Int32) (name : List UInt8) (x y z : CDouble)
    (comment : List UInt8) : Bool × Players :=
  match db pid with
  | some _ => (false, db)
  | none => (true, db.set pid
      (some ⟨name, storedDouble x, storedDouble y, storedDouble z, comment⟩))

/-- `SELECT name, pos_x, pos_y, pos_z FROM players WHERE pid=?`. -/
def sqlSelectTest (db : Players) (pid : Int32) : Option PlayerRow := db pid

/-- `UPDATE players SET pos_x=?, pos_y=?, pos_z=?, comment=? WHERE pid=?`. -/
def sqlUpdateTest (db : Players) (x y z : CDouble) (comment : List UInt8) (pid : Int32) :
    Players :=
  match db pid with
  | some row => db.set pid (some { row with
      posX := storedDouble x
      posY := storedDouble y
      posZ := storedDouble z
      comment := comment })
  | none => db

/-- `DELETE FROM players WHERE pid=?`. -/
def sqlDeleteTest (db : Players) (pid : Int32) : Players := db.set pid none

end Players

/-! ## The jobs -/

structure LoadPlayerDataContext where
  mPlayerId : Int32
  mPosX : CDouble := 0
  mPosY : CDouble := 0
  mPosZ : CDouble := 0
  mPlayerName : CString maxNameLen := .zeros maxNameLen maxNameLen_pos

structure CreatePlayerDataContext where
  mPlayerId : Int32 := -1
  mPosX : CDouble := 0
  mPosY : CDouble := 0
  mPosZ : CDouble := 0
  mPlayerName : CString maxNameLen := .zeros maxNameLen maxNameLen_pos
  mComment : CString maxCommentLen := .zeros maxCommentLen maxCommentLen_pos

structure DeletePlayerDataContext where
  mPlayerId : Int32

structure UpdatePlayerDataContext where
  mPlayerId : Int32
  mPosX : CDouble := 0
  mPosY : CDouble := 0
  mPosZ : CDouble := 0
  mComment : CString maxCommentLen := .zeros maxCommentLen maxCommentLen_pos

/-- Which subclass a job is of, with the subclass's members. -/
inductive JobData where
  | load (job : LoadPlayerDataContext)
  | create (job : CreatePlayerDataContext)
  | delete (job : DeletePlayerDataContext)
  | update (job : UpdatePlayerDataContext)

structure DatabaseJobContext where
  mSockKey : SOCKET
  mSuccess : Bool := false
  data : JobData

namespace DatabaseJobContext

/-- `OnExecute`: its result, the job and the table it leaves.  `none` when a
    name in the table does not fit the job's array and the C runtime ends the
    process. -/
def onExecute (job : DatabaseJobContext) (db : Players) (ioError : Bool) :
    Option (Bool × DatabaseJobContext × Players) :=
  if ioError then
    some (false, job, db)
  else
    match job.data with
    | .load login =>
        match db.sqlSelectTest login.mPlayerId with
        | none => some (false, job, db)
        | some row => do
            let name ← strcpyS login.mPlayerName (row.name ++ [0])
            some (true,
              { job with
                data := .load
                  { login with
                    mPosX := row.posX
                    mPosY := row.posY
                    mPosZ := row.posZ
                    mPlayerName := name } },
              db)
    | .create c =>
        let r := db.sqlInsertTest c.mPlayerId c.mPlayerName.text c.mPosX c.mPosY c.mPosZ
          c.mComment.text
        some (r.1, job, r.2)
    | .delete d => some (true, job, db.sqlDeleteTest d.mPlayerId)
    | .update u =>
        some (true, job,
          db.sqlUpdateTest u.mPosX u.mPosY u.mPosZ u.mComment.text u.mPlayerId)

/-- What the database thread does with a job it took: execute it and record
    the result in it. -/
def execute (job : DatabaseJobContext) (db : Players) (ioError : Bool) :
    Option (DatabaseJobContext × Players) :=
  (job.onExecute db ioError).map (fun r => ({ r.2.1 with mSuccess := r.1 }, r.2.2))

/-- The player a job is about. -/
def playerId (job : DatabaseJobContext) : Int32 :=
  match job.data with
  | .load c => c.mPlayerId
  | .create c => c.mPlayerId
  | .delete c => c.mPlayerId
  | .update c => c.mPlayerId

/-- Is it a `LoadPlayerDataContext`? -/
def isLoad (job : DatabaseJobContext) : Bool :=
  match job.data with
  | .load _ => true
  | _ => false

/-- Executing a job leaves whose it is, whom it is about and what it is. -/
theorem execute_spec {job job' : DatabaseJobContext} {db db' : Players} {ioError : Bool}
    (h : job.execute db ioError = some (job', db')) :
    job'.mSockKey = job.mSockKey ∧ job'.playerId = job.playerId ∧
      job'.isLoad = job.isLoad := by
  obtain ⟨⟨ok, done, db₁⟩, hexec, heq⟩ := Option.map_eq_some_iff.mp h
  cases heq
  unfold onExecute at hexec
  split at hexec
  · cases hexec
    exact ⟨rfl, rfl, rfl⟩
  · cases hdata : job.data with
    | load login =>
        simp only [hdata] at hexec
        cases hrow : db.sqlSelectTest login.mPlayerId with
        | none =>
            simp only [hrow] at hexec
            cases hexec
            exact ⟨rfl, rfl, rfl⟩
        | some row =>
            simp only [hrow] at hexec
            obtain ⟨name, -, hname⟩ := Option.bind_eq_some_iff.mp hexec
            cases hname
            exact ⟨rfl, by simp [playerId, hdata], by simp [isLoad, hdata]⟩
    | create c =>
        simp only [hdata] at hexec
        cases hexec
        exact ⟨rfl, rfl, rfl⟩
    | delete d =>
        simp only [hdata] at hexec
        cases hexec
        exact ⟨rfl, rfl, rfl⟩
    | update u =>
        simp only [hdata] at hexec
        cases hexec
        exact ⟨rfl, rfl, rfl⟩

end DatabaseJobContext
end EasyGameServer
