/-
  EasyGameServer.World.TimerPass

  When the loop of `DoTasks` ends.

  An iteration runs the due front of the queue and pops whatever is at the
  front by then.  A connected session's task has queued its successor before,
  and that is popped instead when it comes before the task: its tick, a 32-bit
  sum, has wrapped.  One of the two stays queued in any case, so the loop runs
  out of due tasks exactly when no successor is due at once.
-/

import EasyGameServer.World.Evolves
import EasyGameServer.Scheduler.DoTasks
import Mathlib.Algebra.Group.Nat.Defs

namespace EasyGameServer

open Lib

/-- The delay with which a task queues its successor. -/
def SessionTask.interval : SessionTask → UInt32
  | .onTick => PLAYER_HEART_BEAT
  | .onDbUpdate => PLAYER_DB_UPDATE_INTERVAL

namespace World

/-- The first line of `DoTasks`. -/
def updateTick (w : World) (tick : UInt32) : World :=
  { w with scheduler := w.scheduler.updateTick tick }

/-- The loop of `DoTasks`. -/
def doTasksBody (w : World) : Iter World World :=
  match w.doTask with
  | some w' => .again w'
  | none => .leave w

variable {w w' : World}

-- ============================================================================
-- The pass of the scheduler
-- ============================================================================

/-- What a timer task and the release of its session do, the queue aside. -/
def timerEffects : Scheduler.Effects World SessionId SessionTask where
  mTask w e :=
    ({ w.runTask e with scheduler := w.scheduler },
      if (w.sessions e.mOwner).mConnected then [⟨e.mOwner, e.mTask, e.mTask.interval⟩] else [])
  decRefCount w owner := w.modify owner ClientSession.decRefCount

/-- The world in the middle of a call of `DoTasks`. -/
def ofPass (p : Scheduler.Pass World SessionId SessionTask) : World :=
  { p.world with scheduler := p.scheduler }

theorem runTask_with_scheduler (w : World) (s : Scheduler SessionId SessionTask)
    (e : JobElement SessionId SessionTask) :
    { w with scheduler := s }.runTask e =
      { w.runTask e with
        scheduler :=
          if (w.sessions e.mOwner).mConnected then
            s.pushTask e.mOwner e.mTask e.mTask.interval
          else s } := by
  unfold runTask onTick onDbUpdate
  cases htask : e.mTask with
  | onTick =>
      by_cases hc : (w.sessions e.mOwner).mConnected = true
      · simp only [if_pos hc]
        rfl
      · simp only [if_neg hc]
  | onDbUpdate =>
      by_cases hc : (w.sessions e.mOwner).mConnected = true
      · simp only [if_pos hc]
        rfl
      · simp only [if_neg hc]

theorem doTask_ofPass {p : Scheduler.Pass World SessionId SessionTask}
    {e : JobElement SessionId SessionTask} (hdue : p.scheduler.dueTop = some e) :
    (ofPass p).doTask = some (ofPass
      (((p.mTask timerEffects e).decRefCount timerEffects e.mOwner).pop)) := by
  have hdue' : (ofPass p).scheduler.dueTop = some e := hdue
  unfold doTask
  rw [hdue']
  simp only [ofPass, runTask_with_scheduler]
  by_cases hc : (p.world.sessions e.mOwner).mConnected = true
  · simp only [if_pos hc, Scheduler.Pass.mTask, timerEffects]
    rfl
  · simp only [if_neg hc, Scheduler.Pass.mTask, timerEffects]
    rfl

/-- An iteration of the loop is one of the scheduler's own. -/
theorem doTasksBody_ofPass (p p' : Scheduler.Pass World SessionId SessionTask) :
    (p.doTasksBody timerEffects = .again p' → doTasksBody (ofPass p) = .again (ofPass p')) ∧
      (p.doTasksBody timerEffects = .leave p' → doTasksBody (ofPass p) = .leave (ofPass p')) := by
  unfold Scheduler.Pass.doTasksBody doTasksBody
  cases hdue : p.scheduler.dueTop with
  | none =>
      have hdue' : (ofPass p).scheduler.dueTop = none := hdue
      have hnone : (ofPass p).doTask = none := by
        unfold doTask
        rw [hdue']
      rw [hnone]
      constructor
      · intro h
        cases h
      · intro h
        cases h
        rfl
  | some e =>
      rw [doTask_ofPass hdue]
      constructor
      · intro h
        cases h
        rfl
      · intro h
        cases h

/-- A call of `DoTasks` in the server is one of the scheduler's own. -/
theorem doTasks_ofPass {n : Nat} {w : World} {tick : UInt32}
    {p : Scheduler.Pass World SessionId SessionTask}
    (h : loop (Scheduler.Pass.doTasksBody timerEffects) n
      (Scheduler.Pass.doTasks w w.scheduler tick) = some p) :
    loop doTasksBody n (w.updateTick tick) = some (ofPass p) :=
  loop_map (fun p p' => (doTasksBody_ofPass p p').1) (fun p p' => (doTasksBody_ofPass p p').2) h

-- ============================================================================
-- One iteration
-- ============================================================================

/-- The job a task queues when its session is connected. -/
def successor (w : World) (e : JobElement SessionId SessionTask) :
    JobElement SessionId SessionTask :=
  ⟨e.mOwner, e.mTask, (e.mTask.interval + w.scheduler.mCurrentTick).toNat⟩

/-- A task does nothing without a connection; else it queues its successor. -/
theorem scheduler_runTask (w : World) (e : JobElement SessionId SessionTask) :
    (w.runTask e).scheduler =
      if (w.sessions e.mOwner).mConnected then
        w.scheduler.pushTask e.mOwner e.mTask e.mTask.interval
      else w.scheduler := by
  unfold runTask onTick onDbUpdate
  split
  next htask =>
    rw [htask]
    split
    · rfl
    · rfl
  next htask =>
    rw [htask]
    split
    · rfl
    · rfl

theorem mConnected_runTask (w : World) (e : JobElement SessionId SessionTask) (i : SessionId) :
    ((w.runTask e).sessions i).mConnected = (w.sessions i).mConnected := by
  have hcall : ∀ (w : World) (after : UInt32) (task : SessionTask),
      ((w.callFuncAfter after e.mOwner task).sessions i).mConnected
        = (w.sessions i).mConnected := by
    intro w after task
    show ((w.modify e.mOwner ClientSession.incRefCount).sessions i).mConnected = _
    by_cases hi : i = e.mOwner
    · rw [hi, sessions_modify_self]
      rfl
    · rw [modify, sessions_put_of_ne w _ hi]
  rcases runTask_cases w e with heq | ⟨after, heq⟩ | ⟨after, heq⟩
  · rw [heq]
  · rw [heq, hcall]
  · rw [heq, hcall]
    rfl

/-- What an iteration leaves in the queue: all but the due front, and, of a
    connected session, the front or its successor, whichever is later. -/
structure TaskRan (w w' : World) (e : JobElement SessionId SessionTask)
    (rest : List (JobElement SessionId SessionTask)) : Prop where
  before : w.scheduler.mTaskQueue.toList.Perm (e :: rest)
  due : e.mExecutionTick ≤ w.scheduler.mCurrentTick.toNat
  after : w'.scheduler.mTaskQueue.toList.Perm
    (if (w.sessions e.mOwner).mConnected then
      (if e.mExecutionTick > (w.successor e).mExecutionTick then e else w.successor e) :: rest
    else rest)
  tick : w'.scheduler.mCurrentTick = w.scheduler.mCurrentTick
  mConnected : ∀ i, (w'.sessions i).mConnected = (w.sessions i).mConnected

theorem doTask_spec (h : w.doTask = some w') : ∃ e rest, TaskRan w w' e rest := by
  obtain ⟨e, hdue, rfl⟩ := doTask_eq h
  obtain ⟨htop, hle⟩ := Scheduler.dueTop_eq_some_iff.mp hdue
  have hbefore := PriorityQueue.pop_perm htop
  refine ⟨e, w.scheduler.mTaskQueue.pop.toList, hbefore.symm, hle, ?_, ?_, ?_⟩
  · show (w.runTask e).scheduler.pop.mTaskQueue.toList.Perm _
    rw [scheduler_runTask]
    by_cases hc : (w.sessions e.mOwner).mConnected = true
    · rw [if_pos hc, if_pos hc]
      -- off goes the successor only if it is strictly earlier
      have hpush := PriorityQueue.push_perm w.scheduler.mTaskQueue (w.successor e)
      have hpop := PriorityQueue.pop_perm
        (Scheduler.top_pushTask htop e.mOwner e.mTask e.mTask.interval)
      have hall : ((if e.mExecutionTick > (w.successor e).mExecutionTick then w.successor e
          else e) ::
            (w.scheduler.pushTask e.mOwner e.mTask e.mTask.interval).pop.mTaskQueue.toList).Perm
          (w.successor e :: e :: w.scheduler.mTaskQueue.pop.toList) :=
        hpop.trans (hpush.trans (hbefore.symm.cons _))
      by_cases hlt : e.mExecutionTick > (w.successor e).mExecutionTick
      · rw [if_pos hlt]
        rw [if_pos hlt] at hall
        exact hall.cons_inv
      · rw [if_neg hlt]
        rw [if_neg hlt] at hall
        exact (hall.trans (List.Perm.swap _ _ _)).cons_inv
    · rw [if_neg hc, if_neg hc]
      rfl
  · show (w.runTask e).scheduler.mCurrentTick = _
    rw [scheduler_runTask]
    split
    · rfl
    · rfl
  · intro i
    rw [← mConnected_runTask w e i]
    show ((((w.runTask e).modify e.mOwner ClientSession.decRefCount).sessions i)).mConnected = _
    by_cases hi : i = e.mOwner
    · rw [hi, sessions_modify_self]
      rfl
    · rw [modify, sessions_put_of_ne _ _ hi]

-- ============================================================================
-- The loop
-- ============================================================================

/-- A due task whose successor will be due at once. -/
structure Wraps (w : World) (e : JobElement SessionId SessionTask) : Prop where
  mem : e ∈ w.scheduler.mTaskQueue
  due : e.mExecutionTick ≤ w.scheduler.mCurrentTick.toNat
  mConnected : (w.sessions e.mOwner).mConnected = true
  wrap : 2 ^ 32 ≤ w.scheduler.mCurrentTick.toNat + e.mTask.interval.toNat

/-- The successor's tick is at most the current one exactly when the sum wraps. -/
theorem successor_due_iff (w : World) (e : JobElement SessionId SessionTask) :
    (w.successor e).mExecutionTick ≤ w.scheduler.mCurrentTick.toNat ↔
      2 ^ 32 ≤ w.scheduler.mCurrentTick.toNat + e.mTask.interval.toNat := by
  have htick := w.scheduler.mCurrentTick.toNat_lt
  have hafter := e.mTask.interval.toNat_lt
  have hpos : 0 < e.mTask.interval.toNat := by
    cases e.mTask <;> decide
  show ((e.mTask.interval + w.scheduler.mCurrentTick).toNat : Int) ≤ _ ↔ _
  rw [UInt32.toNat_add]
  omega

/-- A due task whose successor is due at once keeps the loop going. -/
theorem wraps_doTask {e : JobElement SessionId SessionTask} (h : w.Wraps e) :
    ∃ w' e', w.doTask = some w' ∧ w'.Wraps e' := by
  cases hrun : w.doTask with
  | none =>
      have hdue : w.scheduler.dueTop = none := by
        unfold doTask at hrun
        split at hrun
        next hnone => exact hnone
        next => cases hrun
      have hlt := Scheduler.not_due_of_dueTop_none hdue h.mem
      have hle := h.due
      omega
  | some w' =>
      obtain ⟨f, rest, hran⟩ := doTask_spec hrun
      -- a task that is still queued afterwards is as it was
      have hkept : ∀ g, g ∈ w'.scheduler.mTaskQueue →
          g.mExecutionTick ≤ w.scheduler.mCurrentTick.toNat →
          (w.sessions g.mOwner).mConnected = true →
          2 ^ 32 ≤ w.scheduler.mCurrentTick.toNat + g.mTask.interval.toNat → w'.Wraps g := by
        intro g hmem hdue hc hwrap
        refine ⟨hmem, ?_, ?_, ?_⟩
        · rw [hran.tick]
          exact hdue
        · rw [hran.mConnected]
          exact hc
        · rw [hran.tick]
          exact hwrap
      have hafter := hran.after
      have hmem : e = f ∨ e ∈ rest := List.mem_cons.mp (hran.before.mem_iff.mp h.mem)
      rcases hmem with rfl | hmem
      · -- the front is the task: it or its successor is left
        rw [if_pos h.mConnected] at hafter
        have hsucc := (successor_due_iff w e).mpr h.wrap
        by_cases hlt : e.mExecutionTick > (w.successor e).mExecutionTick
        · rw [if_pos hlt] at hafter
          have hin : e ∈ w'.scheduler.mTaskQueue := hafter.mem_iff.mpr List.mem_cons_self
          exact ⟨w', e, rfl, hkept e hin h.due h.mConnected h.wrap⟩
        · rw [if_neg hlt] at hafter
          have hin : w.successor e ∈ w'.scheduler.mTaskQueue :=
            hafter.mem_iff.mpr List.mem_cons_self
          exact ⟨w', w.successor e, rfl, hkept _ hin hsucc h.mConnected h.wrap⟩
      · have hin : e ∈ w'.scheduler.mTaskQueue := by
          refine hafter.mem_iff.mpr ?_
          split
          · exact List.mem_cons_of_mem _ hmem
          · exact hmem
        exact ⟨w', e, rfl, hkept e hin h.due h.mConnected h.wrap⟩

/-- The queued tasks that are due. -/
def dueTasks (w : World) : Nat :=
  w.scheduler.mTaskQueue.toList.countP
    (fun e => decide (e.mExecutionTick ≤ (w.scheduler.mCurrentTick.toNat : Int)))

/-- Else an iteration leaves one due task less. -/
theorem dueTasks_doTask (hno : ∀ e, ¬ w.Wraps e) (h : w.doTask = some w') :
    w'.dueTasks < w.dueTasks ∧ ∀ e, ¬ w'.Wraps e := by
  obtain ⟨f, rest, hran⟩ := doTask_spec h
  have hfront : f ∈ w.scheduler.mTaskQueue := hran.before.mem_iff.mpr List.mem_cons_self
  have hrest : ∀ e ∈ rest, e ∈ w.scheduler.mTaskQueue := fun e he =>
    hran.before.mem_iff.mpr (List.mem_cons_of_mem _ he)
  -- the successor of the front is not due, so it is what stays
  have hlater : (w.sessions f.mOwner).mConnected = true →
      ¬ (w.successor f).mExecutionTick ≤ w.scheduler.mCurrentTick.toNat := fun hc hle =>
    hno f ⟨hfront, hran.due, hc, (successor_due_iff w f).mp hle⟩
  have hafter : w'.scheduler.mTaskQueue.toList.Perm
      (if (w.sessions f.mOwner).mConnected then w.successor f :: rest else rest) := by
    have hperm := hran.after
    by_cases hc : (w.sessions f.mOwner).mConnected = true
    · have hdue := hran.due
      have hnot := hlater hc
      rw [if_pos hc]
      rwa [if_pos hc, if_neg (by omega)] at hperm
    · rw [if_neg hc]
      rwa [if_neg hc] at hperm
  have hfewer : rest.countP
      (fun e => decide (e.mExecutionTick ≤ (w.scheduler.mCurrentTick.toNat : Int)))
      < w.dueTasks := by
    rw [dueTasks, hran.before.countP_eq, List.countP_cons, if_pos (decide_eq_true hran.due)]
    exact Nat.lt_succ_self _
  constructor
  · rw [dueTasks, hran.tick, hafter.countP_eq]
    by_cases hc : (w.sessions f.mOwner).mConnected = true
    · rw [if_pos hc, List.countP_cons, if_neg (by simpa using hlater hc)]
      exact hfewer
    · rw [if_neg hc]
      exact hfewer
  · intro e hwraps
    obtain ⟨hmem, hdue, hc, hwrap⟩ := hwraps
    rw [hran.tick] at hdue hwrap
    rw [hran.mConnected] at hc
    have hin := hafter.mem_iff.mp hmem
    by_cases hcf : (w.sessions f.mOwner).mConnected = true
    · rw [if_pos hcf] at hin
      rcases List.mem_cons.mp hin with rfl | hin
      · exact hlater hcf hdue
      · exact hno e ⟨hrest e hin, hdue, hc, hwrap⟩
    · rw [if_neg hcf] at hin
      exact hno e ⟨hrest e hin, hdue, hc, hwrap⟩

/-- **`DoTasks` ends.**  Whatever is queued, whoever is connected and whatever
    tick is read, the loop of `DoTasks` ends if and only if no task that is due
    then belongs to a connected session and adds up with the tick to 2^32 or
    more. -/
theorem doTasks_terminates_iff (w : World) (tick : UInt32) :
    Terminates doTasksBody (w.updateTick tick) ↔
      ¬ ∃ e ∈ w.scheduler.mTaskQueue, e.mExecutionTick ≤ tick.toNat ∧
        (w.sessions e.mOwner).mConnected = true ∧
        2 ^ 32 ≤ tick.toNat + e.mTask.interval.toNat := by
  have hiff : (∃ e ∈ w.scheduler.mTaskQueue, e.mExecutionTick ≤ tick.toNat ∧
      (w.sessions e.mOwner).mConnected = true ∧
      2 ^ 32 ≤ tick.toNat + e.mTask.interval.toNat) ↔ ∃ e, (w.updateTick tick).Wraps e := by
    constructor
    · rintro ⟨e, hmem, hdue, hc, hwrap⟩
      exact ⟨e, hmem, hdue, hc, hwrap⟩
    · rintro ⟨e, hmem, hdue, hc, hwrap⟩
      exact ⟨e, hmem, hdue, hc, hwrap⟩
  rw [hiff]
  constructor
  · intro hterm hwraps
    refine not_terminates_of_invariant (fun w => ∃ e, w.Wraps e) ?_ _ hwraps hterm
    rintro w ⟨e, he⟩
    obtain ⟨w', e', hrun, he'⟩ := wraps_doTask he
    refine ⟨w', ?_, e', he'⟩
    rw [doTasksBody, hrun]
  · intro hno
    refine terminates_of_measure (fun w => ∀ e, ¬ w.Wraps e) dueTasks ?_ _
      (fun e he => hno ⟨e, he⟩)
    intro w w' hw hbody
    unfold doTasksBody at hbody
    split at hbody
    next w'' hrun =>
      cases hbody
      obtain ⟨hlt, hw'⟩ := dueTasks_doTask hw hrun
      exact ⟨hw', hlt⟩
    next => cases hbody

end World
end EasyGameServer
