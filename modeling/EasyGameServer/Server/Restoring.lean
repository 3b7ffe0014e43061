/-
  EasyGameServer.Server.Restoring

  What a login brings back.  A load is executed after every job that was pushed
  before it and before every job that was pushed after it, so it finds its
  player where the last save pushed before it has put it; narrowing undoes what
  the save's widening did.  The session, and the client, get the position that
  save was made of.
-/

import EasyGameServer.Server.Whereabouts
import EasyGameServer.Server.Lines

namespace EasyGameServer

open Lib

-- ============================================================================
-- The last save
-- ============================================================================

/-- The session the last of these jobs saved as this player, if one did. -/
inductive LastSave (jobs : List DatabaseJobContext) (pid : Int32) : Option ClientSession → Prop
  | none (hloads : ∀ job ∈ jobs, job.playerId = pid → job.isLoad = true) :
      LastSave jobs pid none
  | some (before after : List DatabaseJobContext) (s : ClientSession)
      (hjobs : jobs = before ++ World.updateJob s :: after) (hpid : s.mPlayerId = pid)
      (hloads : ∀ job ∈ after, job.playerId = pid → job.isLoad = true) :
      LastSave jobs pid (some s)

namespace LastSave

variable {jobs : List DatabaseJobContext} {pid : Int32} {saved : Option ClientSession}

/-- A job that does not save the player changes nothing. -/
theorem concat (h : LastSave jobs pid saved) {job : DatabaseJobContext}
    (hload : job.playerId = pid → job.isLoad = true) : LastSave (jobs ++ [job]) pid saved := by
  have hall : ∀ l : List DatabaseJobContext,
      (∀ j ∈ l, j.playerId = pid → j.isLoad = true) →
      ∀ j ∈ l ++ [job], j.playerId = pid → j.isLoad = true := by
    intro l hl j hj
    rcases List.mem_append.mp hj with hj | hj
    · exact hl j hj
    · rw [List.mem_singleton.mp hj]
      exact hload
  cases h with
  | none hloads => exact .none (hall jobs hloads)
  | some before after s hjobs hpid hloads =>
      refine .some before (after ++ [job]) s ?_ hpid (hall after hloads)
      rw [hjobs, List.append_assoc]
      rfl

end LastSave

/-- The player as this save left it. -/
def Character.savedAs (player : Character) (s : ClientSession) : Character :=
  { player with
    x := storedDouble (floatToDouble s.mPosX)
    y := storedDouble (floatToDouble s.mPosY)
    z := 0 }

/-- Of the jobs sessions push, only the last save of a player counts. -/
theorem Roster.after_issued (r : Roster) {jobs : List DatabaseJobContext}
    (hissued : ∀ job ∈ jobs, Server.Issued job) (pid : Int32) :
    ∃ saved, LastSave jobs pid saved ∧
      r.after jobs pid = (r pid).map (fun p => saved.elim p p.savedAs) := by
  induction jobs using List.reverseRecOn with
  | nil => exact ⟨none, .none (fun _ hj => absurd hj List.not_mem_nil), Option.map_id'.symm⟩
  | append_singleton jobs job ih =>
      obtain ⟨saved, hlast, hafter⟩ := ih (fun j hj => hissued j (List.mem_append_left _ hj))
      have hjob := hissued job (List.mem_append_right _ (List.mem_singleton.mpr rfl))
      rw [Roster.after_concat]
      cases hjob with
      | load sock inPacket =>
          refine ⟨saved, hlast.concat (fun _ => rfl), ?_⟩
          rw [← hafter]
          by_cases hpid : inPacket.mPlayerId = pid
          · subst hpid
            exact KeyedOp.apply_self (World.loadJob sock inPacket).op _
          · exact KeyedOp.apply_of_ne hpid _
      | update s =>
          by_cases hpid : s.mPlayerId = pid
          · subst hpid
            refine ⟨some s, .some jobs [] s rfl rfl (fun _ hj => absurd hj List.not_mem_nil), ?_⟩
            refine (KeyedOp.apply_self (World.updateJob s).op _).trans ?_
            -- it moves whom the jobs before it have left there, and leaves nothing of where
            show ((r.after jobs s.mPlayerId).map _) = _
            rw [hafter, Option.map_map]
            refine congrArg (fun f => (r s.mPlayerId).map f) (funext fun p => ?_)
            cases saved with
            | none => exact congrArg (Character.mk _ _ _) storedDouble_zero
            | some s₀ => exact congrArg (Character.mk _ _ _) storedDouble_zero
          · refine ⟨saved, hlast.concat (fun heq => absurd heq hpid), ?_⟩
            rw [← hafter]
            exact KeyedOp.apply_of_ne hpid _

namespace Server

variable {st st' : Server}

/-- Every job that was ever pushed is one that sessions push. -/
theorem isInvariant_pushed :
    system.IsInvariant System.always (fun st => ∀ t ∈ st.world.pushed, Issued t.job) where
  init := by
    rintro _ ⟨tick, answers, players, rfl⟩ t ht
    exact absurd ht List.not_mem_nil
  step := by
    intro st a st' _ h _ hstep t ht
    cases step_queueMoves hstep with
    | push a js st' _ _ _ _ _ hpushed _ _ hissued _ =>
        rw [hpushed] at ht
        exact (List.mem_append.mp ht).elim (h t) (hissued t)
    | dispatch t₀ q w js _ _ _ _ hpushed _ hupdates =>
        rcases List.mem_append.mp (hpushed ▸ ht) with hold | hnew
        · exact h t hold
        · obtain ⟨s, hjob⟩ := hupdates t hnew
          rw [hjob]
          exact .update s
    | produceRequest => exact h t ht
    | consumeRequest => exact h t ht
    | execute => exact h t ht
    | produceResult => exact h t ht

/-- No execution meets an I/O error. -/
def NoIoErrors (_ : Server) : Event → Prop
  | .execute ioError => ioError = false
  | _ => True

/-- A load that is about to be dispatched shows the player as the last save
    pushed before it has left it. -/
theorem answers_last_save (db : Players) {t : Ticket}
    {q : ProducerConsumerQueue Ticket MAX_DB_JOB}
    (hr : (systemOn db).ReachableBy NoIoErrors st)
    (hq : st.mDbJobResultQueue.consume = some (t, q)) (hload : t.job.isLoad = true) :
    ∃ before asked after saved,
      st.world.pushed.map Ticket.job = before ++ asked :: after ∧
      (asked.isLoad = true ∧ asked.playerId = t.job.playerId ∧
        asked.mSockKey = t.job.mSockKey) ∧
      LastSave before t.job.playerId saved ∧
      t.job.Answers ((db t.job.playerId).map
        (fun row => saved.elim row.character row.character.savedAs)) := by
  have hr' : (systemOn db).ReachableBy (fun _ a => ∀ e, a = .execute e → e = false) st :=
    hr.mono (fun _ a hok e he => by subst he; exact hok)
  obtain ⟨before, asked, after, hpushed, hasked, hanswers⟩ := load_dispatched db hr' hq hload
  have hissued : ∀ job ∈ before, Issued job := by
    intro job hjob
    have hmem : job ∈ st.world.pushed.map Ticket.job := by
      rw [hpushed]
      exact List.mem_append_left _ hjob
    obtain ⟨t', ht', rfl⟩ := List.mem_map.mp hmem
    exact isInvariant_pushed.holds hr.of_startingWith.reachable t' ht'
  obtain ⟨saved, hlast, hafter⟩ := Roster.after_issued db.roster hissued t.job.playerId
  refine ⟨before, asked, after, saved, hpushed, hasked, hlast, ?_⟩
  rw [hafter, Players.roster, Option.map_map] at hanswers
  exact hanswers

/-- The result of a load that succeeded logs in whoever is connected under its
    socket. -/
theorem loginDone_of_dispatch {w w' : World} {job : DatabaseJobContext}
    {login : LoadPlayerDataContext} {client : SessionId} (hkeyed : w.Keyed)
    (hsuccess : job.mSuccess = true) (hdata : job.data = .load login)
    (hreg : w.mClientList[job.mSockKey]? = some client)
    (hconn : (w.sessions client).mConnected = true)
    (h : w.dispatchDatabaseJobResult job = some w') :
    w' = w.loginDone client login.mPlayerId (doubleToFloat login.mPosX)
      (doubleToFloat login.mPosY) login.mPlayerName := by
  have hsock : (w.sessions client).mSocket = job.mSockKey := hkeyed _ client hreg
  simp only [World.dispatchDatabaseJobResult, hsuccess, if_true, hdata, hreg, hconn,
    World.databaseJobDone, hsock] at h
  exact (Option.some.inj h).symm

def withoutIoError (_ : Server) : Event → Bool
  | .execute ioError => !ioError
  | _ => true

theorem noIoErrors_of_without (st : Server) (a : Event) (h : withoutIoError st a = true) :
    NoIoErrors st a := by
  cases a with
  | execute ioError => exact Bool.not_eq_true' ioError |>.mp h
  | _ => trivial

end Server
end EasyGameServer
