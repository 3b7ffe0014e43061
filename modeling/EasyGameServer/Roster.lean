/-
  EasyGameServer.Roster

  What the table of players is for: who exists, under which name, and where.
  A job asks one thing of one player: a create adds them unless they are there,
  an update moves them if they are there, a delete removes them, a load changes
  nothing.  `OnExecute`, when no I/O error interferes, does that to the table
  and answers a load with what the roster says.  The coordinates are the job's
  as SQLite stores them, which is exactly, unless one is a NaN or −0.
-/

import EasyGameServer.DbHelper
import EasyGameServer.Lib.KeyedTable
import Mathlib.Data.List.TakeWhile

namespace EasyGameServer

open Lib

structure Character where
  name : List UInt8
  x : CDouble
  y : CDouble
  z : CDouble

abbrev Roster := Int32 → Option Character

/-- Comments aside. -/
def PlayerRow.character (row : PlayerRow) : Character := ⟨row.name, row.posX, row.posY, row.posZ⟩

def Players.roster (db : Players) : Roster := fun pid => (db pid).map PlayerRow.character

/-- The text of a name in a `char` array: up to its first zero byte. -/
def cText (bytes : List UInt8) : List UInt8 := bytes.takeWhile (· ≠ 0)

theorem cText_of_not_mem {bytes : List UInt8} (h : (0 : UInt8) ∉ bytes) : cText bytes = bytes := by
  refine List.takeWhile_eq_self_iff.mpr (fun b hb => decide_eq_true ?_)
  rintro rfl
  exact h hb

theorem cText_concat_zero (bytes : List UInt8) : cText (bytes ++ [0]) = cText bytes := by
  induction bytes with
  | nil => rfl
  | cons b rest ih =>
      unfold cText at ih ⊢
      rw [List.cons_append, List.takeWhile_cons, List.takeWhile_cons, ih]

namespace DatabaseJobContext

/-- What a job does to the player it is about. -/
def effect (job : DatabaseJobContext) (player : Option Character) : Option Character :=
  match job.data with
  | .load _ => player
  | .create c => player.or (some ⟨c.mPlayerName.text, storedDouble c.mPosX,
      storedDouble c.mPosY, storedDouble c.mPosZ⟩)
  | .delete _ => none
  | .update u => player.map (fun p => { p with
      x := storedDouble u.mPosX
      y := storedDouble u.mPosY
      z := storedDouble u.mPosZ })

def op (job : DatabaseJobContext) : KeyedOp Int32 Character := ⟨job.playerId, job.effect⟩

end DatabaseJobContext

/-- The roster once these jobs have been done, in this order. -/
def Roster.after (r : Roster) (jobs : List DatabaseJobContext) : Roster :=
  KeyedOp.applyAll r (jobs.map DatabaseJobContext.op)

namespace Roster

theorem after_concat (r : Roster) (jobs : List DatabaseJobContext) (job : DatabaseJobContext) :
    r.after (jobs ++ [job]) = job.op.apply (r.after jobs) := by
  rw [after, List.map_append]
  exact KeyedOp.applyAll_concat ..

theorem after_append (r : Roster) (jobs jobs' : List DatabaseJobContext) :
    r.after (jobs ++ jobs') = (r.after jobs).after jobs' := by
  rw [after, List.map_append]
  exact KeyedOp.applyAll_append ..

/-- Jobs about other players make no difference to a player. -/
theorem after_filter (r : Roster) (jobs : List DatabaseJobContext) (pid : Int32) :
    r.after (jobs.filter (fun job => job.playerId = pid)) pid = r.after jobs pid := by
  have hfilter := KeyedOp.applyAll_filter r (jobs.map DatabaseJobContext.op) pid
  rwa [List.filter_map] at hfilter

end Roster

-- ============================================================================
-- The table
-- ============================================================================

namespace Players

variable {db : Players}

theorem roster_set (pid : Int32) (row : Option PlayerRow) :
    (db.set pid row).roster = Function.update db.roster pid (row.map PlayerRow.character) := by
  funext p
  by_cases hp : p = pid
  · subst hp
    simp [roster, set]
  · simp [roster, set, hp]

/-- Nothing changes when a key is given the entry it has. -/
theorem roster_eq_update {pid : Int32} {entry : Option Character} (h : db.roster pid = entry) :
    db.roster = Function.update db.roster pid entry := by
  rw [← h, Function.update_eq_self]

end Players

-- ============================================================================
-- What an execution does
-- ============================================================================

namespace DatabaseJobContext

/-- The ways `OnExecute` can go when no I/O error interferes: what it returns
    and the job and table it leaves. -/
inductive Executes (job : DatabaseJobContext) (db : Players) :
    Bool → DatabaseJobContext → Players → Prop
  | loadNone (c : LoadPlayerDataContext) (hdata : job.data = .load c)
      (hrow : db c.mPlayerId = none) : Executes job db false job db
  | loadRow (c : LoadPlayerDataContext) (row : PlayerRow) (name : CString maxNameLen)
      (hdata : job.data = .load c) (hrow : db c.mPlayerId = some row)
      (hcopy : strcpyS c.mPlayerName (row.name ++ [0]) = some name) :
      Executes job db true
        { job with
          data := .load
            { c with
              mPosX := row.posX
              mPosY := row.posY
              mPosZ := row.posZ
              mPlayerName := name } }
        db
  | createTaken (c : CreatePlayerDataContext) (row : PlayerRow) (hdata : job.data = .create c)
      (hrow : db c.mPlayerId = some row) : Executes job db false job db
  | create (c : CreatePlayerDataContext) (hdata : job.data = .create c)
      (hrow : db c.mPlayerId = none) :
      Executes job db true job (db.set c.mPlayerId
        (some ⟨c.mPlayerName.text, storedDouble c.mPosX, storedDouble c.mPosY,
          storedDouble c.mPosZ, c.mComment.text⟩))
  | delete (c : DeletePlayerDataContext) (hdata : job.data = .delete c) :
      Executes job db true job (db.set c.mPlayerId none)
  | updateNone (c : UpdatePlayerDataContext) (hdata : job.data = .update c)
      (hrow : db c.mPlayerId = none) : Executes job db true job db
  | update (c : UpdatePlayerDataContext) (row : PlayerRow) (hdata : job.data = .update c)
      (hrow : db c.mPlayerId = some row) :
      Executes job db true job (db.set c.mPlayerId
        (some ⟨row.name, storedDouble c.mPosX, storedDouble c.mPosY, storedDouble c.mPosZ,
          c.mComment.text⟩))

variable {job job' : DatabaseJobContext} {db db' : Players} {ok : Bool}

theorem executes_of_onExecute (h : job.onExecute db false = some (ok, job', db')) :
    job.Executes db ok job' db' := by
  simp only [onExecute, Bool.false_eq_true, if_false] at h
  cases hdata : job.data with
  | load c =>
      simp only [hdata, Players.sqlSelectTest] at h
      cases hrow : db c.mPlayerId with
      | none =>
          simp only [hrow] at h
          cases h
          exact .loadNone c hdata hrow
      | some row =>
          simp only [hrow] at h
          obtain ⟨name, hcopy, hname⟩ := Option.bind_eq_some_iff.mp h
          cases hname
          exact .loadRow c row name hdata hrow hcopy
  | create c =>
      simp only [hdata, Players.sqlInsertTest] at h
      cases hrow : db c.mPlayerId with
      | none =>
          simp only [hrow] at h
          cases h
          exact .create c hdata hrow
      | some row =>
          simp only [hrow] at h
          cases h
          exact .createTaken c row hdata hrow
  | delete c =>
      simp only [hdata, Players.sqlDeleteTest] at h
      cases h
      exact .delete c hdata
  | update c =>
      simp only [hdata, Players.sqlUpdateTest] at h
      cases hrow : db c.mPlayerId with
      | none =>
          simp only [hrow] at h
          cases h
          exact .updateNone c hdata hrow
      | some row =>
          simp only [hrow] at h
          cases h
          exact .update c row hdata hrow

/-- It does to the roster what the job asks for. -/
theorem Executes.roster (h : job.Executes db ok job' db') :
    db'.roster = job.op.apply db.roster := by
  show db'.roster = Function.update db.roster job.playerId (job.effect (db.roster job.playerId))
  cases h with
  | loadNone c hdata => simp [effect, hdata]
  | loadRow c row name hdata => simp [effect, hdata]
  | createTaken c row hdata hrow =>
      refine Players.roster_eq_update ?_
      simp [effect, playerId, hdata, Players.roster, hrow]
  | create c hdata hrow =>
      rw [Players.roster_set]
      simp [effect, playerId, hdata, Players.roster, hrow, PlayerRow.character]
  | delete c hdata =>
      rw [Players.roster_set]
      simp [effect, playerId, hdata]
  | updateNone c hdata hrow =>
      refine Players.roster_eq_update ?_
      simp [effect, playerId, hdata, Players.roster, hrow]
  | update c row hdata hrow =>
      rw [Players.roster_set]
      simp [effect, playerId, hdata, Players.roster, hrow, PlayerRow.character]

end DatabaseJobContext

/-- The job shows this player; a name with a zero byte in it, which is no text,
    shows up to there. -/
structure LoadPlayerDataContext.Shows (job : LoadPlayerDataContext) (player : Character) :
    Prop where
  text : job.mPlayerName.text = cText player.name
  name : (0 : UInt8) ∉ player.name → job.mPlayerName.text = player.name
  x : job.mPosX = player.x
  y : job.mPosY = player.y
  z : job.mPosZ = player.z

namespace DatabaseJobContext

variable {job job' : DatabaseJobContext} {db db' : Players} {ok : Bool}

/-- The result of a load: it fails when there is no such player, and shows the
    player when there is one. -/
def Answers (job : DatabaseJobContext) : Option Character → Prop
  | none => job.mSuccess = false
  | some player =>
      job.mSuccess = true ∧ ∃ loaded, job.data = .load loaded ∧ loaded.Shows player

/-- A load is answered with what the roster says. -/
theorem Executes.answers (h : job.Executes db ok job' db') {c : LoadPlayerDataContext}
    (hload : job.data = .load c) :
    { job' with mSuccess := ok }.Answers (db.roster c.mPlayerId) := by
  cases h with
  | loadNone c' hdata hrow =>
      cases hdata.symm.trans hload
      simp [Players.roster, hrow, Answers]
  | loadRow c' row name hdata hrow hcopy =>
      cases hdata.symm.trans hload
      have htext : name.text = cText row.name := (text_strcpyS hcopy).trans (cText_concat_zero _)
      simp only [Players.roster, hrow, Option.map_some, Answers, true_and]
      exact ⟨_, rfl, htext, fun hz => htext.trans (cText_of_not_mem hz), rfl, rfl, rfl⟩
  | createTaken c' row hdata => cases hdata.symm.trans hload
  | create c' hdata => cases hdata.symm.trans hload
  | delete c' hdata => cases hdata.symm.trans hload
  | updateNone c' hdata => cases hdata.symm.trans hload
  | update c' row hdata => cases hdata.symm.trans hload

theorem answers_execute {c : LoadPlayerDataContext} (hload : job.data = .load c)
    (h : job.execute db false = some (job', db')) : job'.Answers (db.roster c.mPlayerId) := by
  obtain ⟨⟨ok, done, db₁⟩, hexec, heq⟩ := Option.map_eq_some_iff.mp h
  cases heq
  exact (executes_of_onExecute hexec).answers hload

end DatabaseJobContext

-- ============================================================================
-- Names that fit
-- ============================================================================

/-- Every name fits the array it is loaded into. -/
def Players.NamesFit (db : Players) : Prop :=
  ∀ pid row, db pid = some row → row.name.length < maxNameLen

theorem Players.NamesFit.set {db : Players} (h : db.NamesFit) (pid : Int32)
    {row : Option PlayerRow} (hrow : ∀ r ∈ row, r.name.length < maxNameLen) :
    (db.set pid row).NamesFit := by
  intro p r hp
  rw [Players.set] at hp
  split at hp
  · exact hrow r hp
  · exact h p r hp

namespace DatabaseJobContext

variable {job job' : DatabaseJobContext} {db db' : Players} {ok : Bool}

theorem Executes.namesFit (h : job.Executes db ok job' db') (hfit : db.NamesFit) :
    db'.NamesFit := by
  cases h with
  | create c hdata hrow =>
      refine hfit.set _ (fun r hr => ?_)
      cases hr
      exact CString.length_text_lt c.mPlayerName
  | delete c hdata => exact hfit.set _ nofun
  | update c row hdata hrow =>
      refine hfit.set _ (fun r hr => ?_)
      cases hr
      exact hfit _ row hrow
  | _ => exact hfit

/-- When the names fit, every job runs to its end. -/
theorem isSome_onExecute (hfit : db.NamesFit) (job : DatabaseJobContext) :
    (job.onExecute db false).isSome := by
  simp only [onExecute, Bool.false_eq_true, if_false]
  cases hdata : job.data with
  | load c =>
      cases hrow : db c.mPlayerId with
      | none => simp [Players.sqlSelectTest, hrow]
      | some row =>
          have hlen : (row.name ++ [0]).length ≤ maxNameLen := by
            rw [List.length_append]
            exact hfit _ row hrow
          have hcopy := (strcpyS_isSome_iff c.mPlayerName hlen).mpr (by simp)
          obtain ⟨name, hname⟩ := Option.isSome_iff_exists.mp hcopy
          simp [Players.sqlSelectTest, hrow, hname]
  | create c => rfl
  | delete c => rfl
  | update c => rfl

end DatabaseJobContext
end EasyGameServer
