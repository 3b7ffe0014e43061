/-
  EasyGameServer.World.Pending

  Which operations touch the timer queue.  A timer pass keeps the tasks of a
  connected session, one for one; `LoginDone` queues a heartbeat and a periodic
  update if the session is still connected once the login result is buffered;
  nothing else queues or takes a task.
-/

import EasyGameServer.World.TimerPass
import EasyGameServer.World.Garbage

namespace EasyGameServer

open Lib

namespace World

/-- The tasks of a kind queued for a session. -/
def pendingTasks (w : World) (this : SessionId) (task : SessionTask) : Nat :=
  w.scheduler.mTaskQueue.toList.countP (fun e => decide (e.mOwner = this ∧ e.mTask = task))

variable {w w' : World} {this : SessionId}

-- ============================================================================
-- What leaves the queue alone
-- ============================================================================

theorem scheduler_flushClientSend (w : World) : w.flushClientSend.scheduler = w.scheduler := by
  unfold flushClientSend
  generalize w.mClientList.toList = its
  induction its generalizing w with
  | nil => rfl
  | cons it its ih => exact ih _

theorem scheduler_recvExit (w : World) (this : SessionId) :
    (w.recvExit this).scheduler = w.scheduler := by
  rcases recvExit_cases w this with ⟨-, hcalm⟩ | ⟨-, k, heq⟩ | ⟨-, k, hcalm⟩
  · exact hcalm.scheduler
  · rw [heq]
    rfl
  · exact hcalm.scheduler

theorem scheduler_recvCompletion (w : World) (post : RecvPost) (dwError : Bool)
    (data : List UInt8) : (w.recvCompletion post dwError data).2.scheduler = w.scheduler := by
  rcases recvCompletion_cases w post dwError data with ⟨-, heq⟩ | ⟨-, -, heq⟩ | ⟨-, -, heq⟩
  · rw [heq]
    rfl
  · rw [heq]
    rfl
  · rw [heq]
    rfl

theorem scheduler_onReadBody (h : onReadBody this w = .again w') :
    w'.scheduler = w.scheduler := by
  cases consumes_of_onReadBody h with
  | calm hcalm => exact hcalm.scheduler
  | login => rfl
  | other _ _ _ _ hcalm => exact hcalm.scheduler

theorem scheduler_onPeriodWork (w : World) (currTick : UInt32) :
    (w.onPeriodWork currTick).scheduler = w.scheduler := by
  unfold onPeriodWork
  split
  · have heq := foldl_deleteClient
      ((w.mClientList.toList.map Prod.snd).filter (fun i => isGarbage (w.sessions i))) w
    have hscheduler := congrArg scheduler heq
    exact hscheduler
  · rfl

-- ============================================================================
-- What changes it
-- ============================================================================

/-- A timer pass queues no further task of a kind for anybody. -/
theorem TaskRan.pendingTasks_le {e : JobElement SessionId SessionTask}
    {rest : List (JobElement SessionId SessionTask)} (h : TaskRan w w' e rest) (i : SessionId)
    (task : SessionTask) : w'.pendingTasks i task ≤ w.pendingTasks i task := by
  have hbefore := h.before.countP_eq (fun e => decide (e.mOwner = i ∧ e.mTask = task))
  have hafter := h.after.countP_eq (fun e => decide (e.mOwner = i ∧ e.mTask = task))
  rw [pendingTasks, pendingTasks, hbefore, hafter, List.countP_cons]
  split
  · -- the task and its successor are of one session and one kind
    rw [List.countP_cons]
    split
    · exact Nat.le_refl _
    · exact Nat.le_refl _
  · exact Nat.le_add_right _ _

theorem pendingTasks_callFuncAfter (w : World) (after : UInt32) (this : SessionId)
    (memfunc : SessionTask) (i : SessionId) (task : SessionTask) :
    (w.callFuncAfter after this memfunc).pendingTasks i task =
      w.pendingTasks i task + if this = i ∧ memfunc = task then 1 else 0 := by
  rw [pendingTasks, callFuncAfter, Scheduler.pushTask, (PriorityQueue.push_perm _ _).countP_eq,
    List.countP_cons]
  simp only [decide_eq_true_eq]
  rfl

/-- A session that is not connected schedules nothing. -/
theorem pendingTasks_onTick (w : World) (this i : SessionId) (task : SessionTask) :
    (w.onTick this).pendingTasks i task =
      w.pendingTasks i task +
        if (w.sessions this).mConnected ∧ this = i ∧ task = .onTick then 1 else 0 := by
  unfold onTick
  by_cases hc : (w.sessions this).mConnected = true
  · rw [if_pos hc, pendingTasks_callFuncAfter]
    simp only [hc, true_and, eq_comm]
  · rw [if_neg hc, if_neg (fun h => hc h.1)]
    rfl

theorem pendingTasks_onDbUpdate (w : World) (this i : SessionId) (task : SessionTask) :
    (w.onDbUpdate this).pendingTasks i task =
      w.pendingTasks i task +
        if (w.sessions this).mConnected ∧ this = i ∧ task = .onDbUpdate then 1 else 0 := by
  unfold onDbUpdate
  by_cases hc : (w.sessions this).mConnected = true
  · rw [if_pos hc, pendingTasks_callFuncAfter]
    simp only [hc, true_and, eq_comm]
    rfl
  · rw [if_neg hc, if_neg (fun h => hc h.1)]
    rfl

/-- The packet `LoginDone` sends. -/
def loginResult (pid : Int32) (x y : CFloat) (name : CString maxNameLen) : OutPacket :=
  .loginResult ⟨pid, x, y, (CString.zeros maxNameLen maxNameLen_pos).copy name⟩

/-- Is the session connected once a packet has been buffered for it, or not? -/
def survives (w : World) (this : SessionId) (pkt : OutPacket) : Bool :=
  ((w.sendRequest this pkt).2.sessions this).mConnected

/-- Whether a packet fits has nothing to do with who the session is. -/
theorem mConnected_sendRequest_congr {s s' : ClientSession} (hconn : s'.mConnected = s.mConnected)
    (hbuffer : s'.mSendBuffer = s.mSendBuffer) (pkt : OutPacket) (os : Os) :
    (s'.sendRequest pkt os).2.1.mConnected = (s.sendRequest pkt os).2.1.mConnected := by
  unfold ClientSession.sendRequest ClientSession.disconnect
  simp only [hconn, hbuffer]
  split
  · split
    · rfl
    · split
      · rfl
      · rfl
  · exact hconn

/-- A login queues one task of each kind for a session that stays connected. -/
theorem pendingTasks_loginDone (w : World) (this : SessionId) (pid : Int32) (x y : CFloat)
    (name : CString maxNameLen) (i : SessionId) (task : SessionTask) :
    (w.loginDone this pid x y name).pendingTasks i task =
      w.pendingTasks i task +
        if w.survives this (loginResult pid x y name) ∧ this = i then 1 else 0 := by
  unfold loginDone
  extract_lets w₁ outPacket w₂ w₃
  have hqueue : w₃.pendingTasks i task = w.pendingTasks i task := rfl
  have hconn : (w₃.sessions this).mConnected = w.survives this (loginResult pid x y name) := by
    have hlogon := congrArg ClientSession.mConnected
      (sessions_modify_self w₂ this (fun s => { s with mLogon := true }))
    have hsent : (w₂.sessions this).mConnected
        = ((w₁.sessions this).sendRequest (.loginResult outPacket) w.os).2.1.mConnected :=
      congrArg ClientSession.mConnected (sessions_put_self w₁ this _)
    have hsame : (w.sendRequest this (loginResult pid x y name)).2.sessions this
        = ((w.sessions this).sendRequest (loginResult pid x y name) w.os).2.1 :=
      sessions_put_self w this _
    have hself : w₁.sessions this = _ := sessions_put_self _ this _
    rw [survives, hsame]
    refine hlogon.trans (hsent.trans ?_)
    exact mConnected_sendRequest_congr (by rw [hself]; rfl) (by rw [hself]; rfl) _ _
  have htick : ((w₃.onTick this).sessions this).mConnected = (w₃.sessions this).mConnected :=
    mConnected_runTask w₃ ⟨this, .onTick, 0⟩ this
  rw [pendingTasks_onDbUpdate, pendingTasks_onTick, hqueue, htick, hconn]
  cases task with
  | onTick => simp
  | onDbUpdate => simp

end World
end EasyGameServer
