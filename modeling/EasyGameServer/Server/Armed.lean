/-
  EasyGameServer.Server.Armed

  Who has timers.  A session has its heartbeat and its periodic update queued
  from the moment it is logged on until it loses its connection, and never
  before: `OnTick` and `OnDbUpdate` queue themselves again whenever they run on
  a connected session, and nobody else queues them.
-/

import EasyGameServer.Server.Timers
import EasyGameServer.Server.Receiving

namespace EasyGameServer

open Lib

namespace World

variable {w w' : World}

/-- `LoginDone` leaves a session connected if the login result does. -/
theorem mConnected_loginDone (w : World) (this : SessionId) (pid : Int32) (x y : CFloat)
    (name : CString maxNameLen) :
    ((w.loginDone this pid x y name).sessions this).mConnected =
      w.survives this (loginResult pid x y name) := by
  have hrun : ∀ (w : World) (task : SessionTask),
      ((w.runTask ⟨this, task, 0⟩).sessions this).mConnected = (w.sessions this).mConnected :=
    fun w task => mConnected_runTask w ⟨this, task, 0⟩ this
  unfold loginDone
  extract_lets w₁ outPacket w₂ w₃
  have hlogon := congrArg ClientSession.mConnected
    (sessions_modify_self w₂ this (fun s => { s with mLogon := true }))
  have hsent : (w₂.sessions this).mConnected
      = ((w₁.sessions this).sendRequest (.loginResult outPacket) w.os).2.1.mConnected :=
    congrArg ClientSession.mConnected (sessions_put_self w₁ this _)
  have hsame : (w.sendRequest this (loginResult pid x y name)).2.sessions this
      = ((w.sessions this).sendRequest (loginResult pid x y name) w.os).2.1 :=
    sessions_put_self w this _
  have hself : w₁.sessions this = _ := sessions_put_self _ this _
  rw [survives, hsame]
  refine (hrun (w₃.onTick this) .onDbUpdate).trans ((hrun w₃ .onTick).trans ?_)
  refine hlogon.trans (hsent.trans ?_)
  exact mConnected_sendRequest_congr (by rw [hself]; rfl) (by rw [hself]; rfl) _ _

/-- A timer pass takes no task from a connected session. -/
theorem TaskRan.pendingTasks_ge {e : JobElement SessionId SessionTask}
    {rest : List (JobElement SessionId SessionTask)} (h : TaskRan w w' e rest) {i : SessionId}
    (hconn : (w.sessions i).mConnected = true) (task : SessionTask) :
    w.pendingTasks i task ≤ w'.pendingTasks i task := by
  have hbefore := h.before.countP_eq (fun e => decide (e.mOwner = i ∧ e.mTask = task))
  have hafter := h.after.countP_eq (fun e => decide (e.mOwner = i ∧ e.mTask = task))
  rw [pendingTasks, pendingTasks, hbefore, hafter, List.countP_cons]
  by_cases he : e.mOwner = i
  · -- the task or its successor stays, and they are of one session and one kind
    obtain ⟨kept, hkept, howner, htask⟩ : ∃ kept,
        (if e.mExecutionTick > (w.successor e).mExecutionTick then e else w.successor e) = kept ∧
          kept.mOwner = e.mOwner ∧ kept.mTask = e.mTask := by
      split
      · exact ⟨e, rfl, rfl, rfl⟩
      · exact ⟨w.successor e, rfl, rfl, rfl⟩
    rw [he, if_pos hconn, hkept, List.countP_cons, howner, htask, he]
  · rw [if_neg (by simp [he]), Nat.add_zero]
    split
    · rw [List.countP_cons]
      exact Nat.le_add_right _ _
    · exact Nat.le_refl _

end World

namespace Server

/-- Who is logged on and connected has both tasks; who is not logged on has
    neither. -/
structure Armed (w : World) : Prop where
  running : ∀ i task, (w.sessions i).mLogon = true → (w.sessions i).mConnected = true →
    0 < w.pendingTasks i task
  idle : ∀ i task, (w.sessions i).mLogon = false → w.pendingTasks i task = 0

variable {st st' : Server}

/-- Only a login logs on. -/
theorem logsOn_step {a : Event} (h : st.step a = some st') {i : SessionId}
    (hi : (st'.world.sessions i).mLogon = true) :
    (st.world.sessions i).mLogon = true ∨
      ∃ pid x y name, st'.world = st.world.loginDone i pid x y name := by
  cases step_plays h with
  | steady _ hsteady => exact Or.inl ((congrArg Profile.mLogon (hsteady.profile i)).symm.trans hi)
  | take sendMem recvMem hprofile htrace =>
      have hlogon := congrArg Profile.mLogon (hprofile i)
      split at hlogon
      next => cases hi.symm.trans hlogon
      next => exact Or.inl (hlogon.symm.trans hi)
  | read this r bytes hthread hreads hheard => exact Or.inl ((hheard.mLogon i).symm.trans hi)
  | dispatch t q client login hq hsuccess hdata hreg hconn hdone =>
      have hlogon := congrArg Profile.mLogon ((World.loggedIn_of_eq hdone).profile i)
      split at hlogon
      next heq => exact Or.inr ⟨_, _, _, _, heq ▸ hdone⟩
      next => exact Or.inl (hlogon.symm.trans hi)

/-- No step takes a task from a session that stays connected. -/
theorem pendingTasks_step {a : Event} (h : st.step a = some st') {i : SessionId}
    (hconn : (st.world.sessions i).mConnected = true) (task : SessionTask) :
    st.world.pendingTasks i task ≤ st'.world.pendingTasks i task := by
  cases step_schedules h with
  | same _ hqueue => rw [World.pendingTasks, World.pendingTasks, hqueue]
  | ran e rest hran => exact hran.pendingTasks_ge hconn task
  | login t q client login hq hsuccess hdata hreg hdone =>
      rw [hdone, World.pendingTasks_loginDone]
      exact Nat.le_add_right _ _

theorem Armed.step {a : Event} (h : Armed st.world) (hsound : Sound st)
    (hknown : Known st.world) (hstep : st.step a = some st') : Armed st'.world := by
  constructor
  · intro i task hlogon hconn
    rcases logsOn_step hstep hlogon with hbefore | ⟨pid, x, y, name, hdone⟩
    · rcases mConnected_step hstep hsound.keyed hconn with hwas | ⟨hnew, -⟩
      · exact Nat.lt_of_lt_of_le (h.running i task hbefore hwas) (pendingTasks_step hstep hwas task)
      · -- a session that was not there is not logged on
        have hknows := (hknown.knows i).mLogon
        rw [hknown.unused i (Nat.le_of_eq hnew.symm)] at hknows
        cases hbefore.symm.trans hknows
    · rw [hdone, World.mConnected_loginDone] at hconn
      rw [hdone, World.pendingTasks_loginDone, if_pos ⟨hconn, rfl⟩]
      exact Nat.succ_pos _
  · intro i task hoff
    have hwas : (st.world.sessions i).mLogon = false := by
      by_contra hon
      rw [Bool.not_eq_false] at hon
      cases hoff.symm.trans (mLogon_step hknown hstep hon)
    have hnone := h.idle i task hwas
    cases step_schedules hstep with
    | same _ hqueue => rwa [World.pendingTasks, hqueue]
    | ran e rest hran => exact Nat.le_zero.mp (hnone ▸ hran.pendingTasks_le i task)
    | login t q client login hq hsuccess hdata hreg hdone =>
        have hlogon := congrArg Profile.mLogon ((World.loggedIn_of_eq hdone).profile i)
        rw [hdone, World.pendingTasks_loginDone, hnone, if_neg]
        rintro ⟨-, rfl⟩
        rw [if_pos rfl] at hlogon
        cases hoff.symm.trans hlogon

theorem isInvariant_armed : system.IsInvariant System.always (fun st => Armed st.world) where
  init := by
    rintro _ ⟨tick, answers, players, rfl⟩
    exact ⟨fun _ _ hlogon => absurd hlogon Bool.false_ne_true, fun _ _ _ => rfl⟩
  step _ _ _ hr h _ hstep := h.step (sound_of_reachable hr) (known_of_reachable hr) hstep

/-- **Timers.**  In every reachable state a session that is not logged on has
    no task queued, and one that is logged on and connected has a heartbeat and
    a periodic update queued, one of each if nobody is ever logged in who is
    logged on and stays connected. -/
theorem timers_armed (st : Server) (h : system.Reachable st) (i : SessionId)
    (task : SessionTask) :
    ((st.world.sessions i).mLogon = false → st.world.pendingTasks i task = 0) ∧
      ((st.world.sessions i).mLogon = true → (st.world.sessions i).mConnected = true →
        0 < st.world.pendingTasks i task ∧
          (system.ReachableBy LogsOnOnce st → st.world.pendingTasks i task = 1)) := by
  have harmed := isInvariant_armed.holds h
  refine ⟨harmed.idle i task, fun hlogon hconn => ⟨harmed.running i task hlogon hconn, ?_⟩⟩
  intro honce
  have hle := isInvariant_single.holds honce i task
  rw [if_pos hlogon] at hle
  exact Nat.le_antisymm hle (harmed.running i task hlogon hconn)

/-- A client logs in. -/
theorem timers_armed_login :
    ∃ st, system.Reachable st ∧ 0 < st.world.pendingTasks 0 .onDbUpdate := by
  have hrun : (system.run (new 0 (fun _ => true) onePlayer) loginEvents).map
      (fun st => ((st.world.sessions 0).mLogon, (st.world.sessions 0).mConnected))
        = some (true, true) := by
    decide +kernel
  obtain ⟨st, hst, hall⟩ := Option.map_eq_some_iff.mp hrun
  obtain ⟨hlogon, hconn⟩ := Prod.mk.inj hall
  have hreach : system.Reachable st := .run (.init ⟨_, _, _, rfl⟩) hst
  exact ⟨st, hreach, ((timers_armed st hreach 0 .onDbUpdate).2 hlogon hconn).1⟩

end Server
end EasyGameServer
