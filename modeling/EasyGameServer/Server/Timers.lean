/-
  EasyGameServer.Server.Timers

  The heartbeat and the periodic update of a session.  A login queues one of
  each and each queues its successor, so a session that is logged in once has
  one of each; `mLogon` would tell, but nobody asks it, and every further login
  of a session that stays connected starts two more.
-/

import EasyGameServer.Server.Moving
import EasyGameServer.World.Pending

namespace EasyGameServer

open Lib

namespace Server

-- ============================================================================
-- What a step schedules
-- ============================================================================

inductive Schedules (st st' : Server) : Event → Prop
  | same (a : Event)
      (hqueue : st'.world.scheduler.mTaskQueue = st.world.scheduler.mTaskQueue) : Schedules st st' a
  /-- A timer pass runs a task. -/
  | ran (e : JobElement SessionId SessionTask) (rest : List (JobElement SessionId SessionTask))
      (hran : World.TaskRan st.world st'.world e rest) : Schedules st st' .task
  /-- The result of a load logs in. -/
  | login (t : Ticket) (q : ProducerConsumerQueue Ticket MAX_DB_JOB) (client : SessionId)
      (login : LoadPlayerDataContext) (hq : st.mDbJobResultQueue.consume = some (t, q))
      (hsuccess : t.job.mSuccess = true) (hdata : t.job.data = .load login)
      (hreg : st.world.mClientList[t.job.mSockKey]? = some client)
      (hdone : st'.world = st.world.loginDone client login.mPlayerId
        (doubleToFloat login.mPosX) (doubleToFloat login.mPosY) login.mPlayerName) :
      Schedules st st' .dispatch

variable {st st' : Server}

theorem step_schedules {a : Event} (h : st.step a = some st') : Schedules st st' a := by
  have hsame : ∀ {w w' : World}, w'.scheduler = w.scheduler →
      w'.scheduler.mTaskQueue = w.scheduler.mTaskQueue := fun heq => congrArg _ heq
  cases step_moves h with
  | takeAccepted sendMem recvMem sock =>
      refine .same _ (hsame ?_)
      show (st.world.acceptClient sock sendMem recvMem).scheduler = _
      rw [World.acceptClient_eq]
      exact World.scheduler_recvExit _ _
  | flush => exact .same _ (hsame (World.scheduler_flushClientSend _))
  | wake => exact .same _ rfl
  | recvCompletion post dwError data =>
      exact .same _ (hsame (World.scheduler_recvCompletion _ post dwError data))
  | readAgain this w _ _ hbody => exact .same _ (hsame (World.scheduler_onReadBody hbody))
  | readLeave this w _ _ hbody =>
      exact .same _ (hsame ((World.scheduler_recvExit w this).trans
        (World.onReadBody_leave hbody).scheduler))
  | sendCompletion => exact .same _ rfl
  | timer tick => exact .same _ rfl
  | taskRun w _ _ htask =>
      obtain ⟨e, rest, hran⟩ := World.doTask_spec htask
      exact .ran e rest hran
  | taskNone => exact .same _ rfl
  | period currTick => exact .same _ (hsame (World.scheduler_onPeriodWork _ currTick))
  | dispatchNone => exact .same _ rfl
  | dispatchJob t q w _ _ hq hw =>
      rcases World.dispatchDatabaseJobResult_cases hw with
        rfl | ⟨client, login, hsuccess, hdata, hreg, -, -, heq⟩
      · exact .same _ rfl
      · exact .login t q client login hq hsuccess hdata hreg heq
  | accept sock => exact .same _ rfl
  | produceAccepted => exact .same _ rfl
  | produceRequest => exact .same _ rfl
  | consumeRequest => exact .same _ rfl
  | execute => exact .same _ rfl
  | produceResult => exact .same _ rfl

/-- Who is logged on stays so. -/
theorem mLogon_step {a : Event} (hknown : Known st.world) (h : st.step a = some st')
    {i : SessionId} (hi : (st.world.sessions i).mLogon = true) :
    (st'.world.sessions i).mLogon = true := by
  cases step_plays h with
  | steady _ hsteady => exact (congrArg Profile.mLogon (hsteady.profile i)).trans hi
  | take sendMem recvMem hprofile htrace =>
      have hlogon := congrArg Profile.mLogon (hprofile i)
      split at hlogon
      next hnew =>
        have hknows := (hknown.knows i).mLogon
        rw [hknown.unused i (Nat.le_of_eq hnew.symm)] at hknows
        cases hi.symm.trans hknows
      next => exact hlogon.trans hi
  | read this r bytes hthread hreads hheard =>
      exact (hheard.mLogon i).trans hi
  | dispatch t q client login hq hsuccess hdata hreg hconn hdone =>
      have hlogged := World.loggedIn_of_eq hdone
      have hlogon := congrArg Profile.mLogon (hlogged.profile i)
      split at hlogon
      next => exact hlogon
      next => exact hlogon.trans hi

-- ============================================================================
-- One chain of each kind
-- ============================================================================

/-- No result of a load is dispatched to a session that is logged on, unless
    that session loses its connection over the login result. -/
def LogsOnOnce (st : Server) : Event → Prop
  | .dispatch => ∀ t q login client, st.mDbJobResultQueue.consume = some (t, q) →
      t.job.mSuccess = true → t.job.data = .load login →
      st.world.mClientList[t.job.mSockKey]? = some client →
      st.world.survives client (World.loginResult login.mPlayerId (doubleToFloat login.mPosX)
        (doubleToFloat login.mPosY) login.mPlayerName) = true →
      (st.world.sessions client).mLogon = false
  | _ => True

/-- Nobody has two tasks of a kind, and who is not logged on has none. -/
def Single (w : World) : Prop :=
  ∀ i task, w.pendingTasks i task ≤ if (w.sessions i).mLogon then 1 else 0

theorem Single.step {a : Event} (h : Single st.world) (hknown : Known st.world)
    (hok : LogsOnOnce st a) (hstep : st.step a = some st') : Single st'.world := by
  intro i task
  -- the bound of a session does not go down
  have hbound : (if (st.world.sessions i).mLogon then 1 else 0)
      ≤ if (st'.world.sessions i).mLogon then 1 else 0 := by
    by_cases hi : (st.world.sessions i).mLogon = true
    · rw [if_pos hi, if_pos (mLogon_step hknown hstep hi)]
    · rw [if_neg hi]
      exact Nat.zero_le _
  cases step_schedules hstep with
  | same _ hqueue =>
      have hsame : st'.world.pendingTasks i task = st.world.pendingTasks i task := by
        rw [World.pendingTasks, World.pendingTasks, hqueue]
      rw [hsame]
      exact Nat.le_trans (h i task) hbound
  | ran e rest hran =>
      exact Nat.le_trans (hran.pendingTasks_le i task) (Nat.le_trans (h i task) hbound)
  | login t q client login hq hsuccess hdata hreg hdone =>
      have hlogged := World.loggedIn_of_eq hdone
      have hpending := World.pendingTasks_loginDone st.world client login.mPlayerId
        (doubleToFloat login.mPosX) (doubleToFloat login.mPosY) login.mPlayerName i task
      rw [← hdone] at hpending
      rw [hpending]
      by_cases hstarts : st.world.survives client (World.loginResult login.mPlayerId
          (doubleToFloat login.mPosX) (doubleToFloat login.mPosY) login.mPlayerName) = true
          ∧ client = i
      · obtain ⟨hsurvives, rfl⟩ := hstarts
        -- it had no task before
        have hbefore := h client task
        rw [hok t q login client hq hsuccess hdata hreg hsurvives] at hbefore
        have hlogon := congrArg Profile.mLogon (hlogged.profile client)
        rw [if_pos rfl] at hlogon
        have hlogon' : (st'.world.sessions client).mLogon = true := hlogon
        rw [if_pos ⟨hsurvives, rfl⟩, hlogon']
        exact Nat.succ_le_succ hbefore
      · rw [if_neg hstarts]
        exact Nat.le_trans (h i task) hbound

theorem isInvariant_single : system.IsInvariant LogsOnOnce (fun st => Single st.world) where
  init := by
    rintro _ ⟨tick, answers, players, rfl⟩ i task
    exact Nat.zero_le _
  step _ _ _ hr h hok hstep := h.step (known_of_reachable hr.reachable) hok hstep

/-- **One of each.**  In every run in which no session is logged in that is
    logged on and stays connected, no session ever has two heartbeats or two
    periodic updates queued. -/
theorem pendingTasks_le_one (st : Server) (h : system.ReachableBy LogsOnOnce st) (i : SessionId)
    (task : SessionTask) : st.world.pendingTasks i task ≤ 1 := by
  have hsingle := isInvariant_single.holds h i task
  split at hsingle
  · exact hsingle
  · exact Nat.le_succ_of_le hsingle

/-- What is dispatched is no load's result, or it is for a session that is not
    logged on. -/
def loadsLoggedOff (st : Server) (a : Event) : Bool :=
  !a.isDispatch || st.mDbJobResultQueue.consume.all (fun r =>
    !r.1.job.isLoad || (st.world.mClientList[r.1.job.mSockKey]?).all
      (fun client => !(st.world.sessions client).mLogon))

theorem logsOnOnce_of_loggedOff (st : Server) (a : Event) (h : loadsLoggedOff st a = true) :
    LogsOnOnce st a := by
  cases a with
  | dispatch =>
      intro t q login client hq hsuccess hdata hreg hsurvives
      have hload : t.job.isLoad = true := by rw [DatabaseJobContext.isLoad, hdata]
      simpa [loadsLoggedOff, Event.isDispatch, hq, hload, hreg] using h
  | _ => trivial

/-- A client logs in and stays until the client thread sleeps again. -/
theorem pendingTasks_le_one_login :
    ∃ st, system.ReachableBy LogsOnOnce st ∧ (st.world.sessions 0).mLogon = true ∧
      st.world.pendingTasks 0 .onTick ≤ 1 := by
  have hrun : (system.runIf loadsLoggedOff (new 0 (fun _ => true) onePlayer) loginEvents).map
      (fun st => (st.world.sessions 0).mLogon) = some true := by
    decide +kernel
  obtain ⟨st, hst, hlogon⟩ := Option.map_eq_some_iff.mp hrun
  have hinit : system.ReachableBy LogsOnOnce (new 0 (fun _ => true) onePlayer) :=
    .init ⟨_, _, _, rfl⟩
  have hreach := hinit.runIf logsOnOnce_of_loggedOff hst
  exact ⟨st, hreach, hlogon, pendingTasks_le_one st hreach 0 .onTick⟩

/-- A client asks to be logged in twice and has two of each. -/
theorem pendingTasks_two :
    ∃ st i, system.Reachable st ∧ (∃ apcRan, st.clientThread = .sleeping apcRan) ∧
      st.world.pendingTasks i .onTick = 2 ∧ st.world.pendingTasks i .onDbUpdate = 2 := by
  have hrun : (system.run (new 0 (fun _ => true) onePlayer)
      [.accept 5, .produceAccepted, .takeAccepted (fun _ => 0) (fun _ => 0), .flush,
        .recvCompletion ⟨0, 0, BUFSIZE⟩ false
          ([8, 0, 1, 0, 7, 0, 0, 0] ++ [8, 0, 1, 0, 7, 0, 0, 0]),
        .read, .produceRequest, .read, .produceRequest, .read, .consumeRequest, .execute false,
        .produceResult, .consumeRequest, .execute false, .produceResult, .timer 100, .task,
        .period 100, .dispatch, .produceRequest, .dispatch, .produceRequest, .dispatch]).map
      (fun st => (st.clientThread, st.world.pendingTasks 0 .onTick,
        st.world.pendingTasks 0 .onDbUpdate)) = some (.sleeping true, 2, 2) := by
    decide +kernel
  obtain ⟨st, hst, hall⟩ := Option.map_eq_some_iff.mp hrun
  simp only [Prod.mk.injEq] at hall
  obtain ⟨hthread, htick, hupdate⟩ := hall
  exact ⟨st, 0, .run (.init ⟨_, _, _, rfl⟩) hst, ⟨true, hthread⟩, htick, hupdate⟩

-- ============================================================================
-- The wrap
-- ============================================================================

/-- A player is logged in, and the timer comes next a millisecond before the
    tick wraps. -/
theorem doTasks_hangs :
    ∃ st tick, system.Reachable st ∧ (∃ apcRan, st.clientThread = .sleeping apcRan) ∧
      ¬ Terminates World.doTasksBody (st.world.updateTick tick) := by
  have hrun : (system.run (new 0 (fun _ => true) onePlayer) loginEvents).map
      (fun st => (st.clientThread, (st.world.sessions 0).mConnected,
        st.world.scheduler.mTaskQueue.toList.any
          (fun e => decide (e.mOwner = 0 ∧ e.mTask = .onTick ∧ e.mExecutionTick ≤ 1100))))
        = some (.sleeping true, true, true) := by
    decide +kernel
  obtain ⟨st, hst, hall⟩ := Option.map_eq_some_iff.mp hrun
  simp only [Prod.mk.injEq, List.any_eq_true, decide_eq_true_eq] at hall
  obtain ⟨hthread, hconn, e, hmem, howner, htask, hdue⟩ := hall
  refine ⟨st, 4294967295, .run (.init ⟨_, _, _, rfl⟩) hst, ⟨true, hthread⟩, ?_⟩
  rw [World.doTasks_terminates_iff, not_not]
  refine ⟨e, hmem, Int.le_trans hdue (by decide), by rwa [howner], ?_⟩
  rw [htask]
  decide

end Server
end EasyGameServer
