/-
  EasyGameServer.Scheduler.Basic

  The timer queue of `Scheduler.h` / `Scheduler.cpp`, over any type of owners
  and any type of tasks.  What running a task does is up to the code that owns
  the tasks, so one iteration of the loop in `DoTasks` is its three parts: the
  due front (`dueTop`), the run, and `pop`.

  `mCurrentTick` is a `DWORD`, `after` a `uint32_t`: their sum wraps before it
  is widened to the `int64_t` of a job.
-/

import EasyGameServer.Lib.PriorityQueue

namespace EasyGameServer

open Lib

structure JobElement (ω τ : Type _) where
  mOwner : ω
  mTask : τ
  mExecutionTick : Int

variable {ω τ : Type _}

def jobComparator (lhs rhs : JobElement ω τ) : Bool :=
  decide (lhs.mExecutionTick > rhs.mExecutionTick)

instance : StrictWeakOrder (jobComparator (ω := ω) (τ := τ)) where
  asymm := by
    intro a b h
    simp only [jobComparator, decide_eq_true_eq, decide_eq_false_iff_not] at *
    omega
  cotrans := by
    intro a c b h
    simp only [jobComparator, decide_eq_true_eq] at *
    omega

/-- `std::priority_queue<JobElement, std::vector<JobElement>, JobComparator>`. -/
abbrev TaskPriorityQueue (ω τ : Type _) := PriorityQueue (jobComparator (ω := ω) (τ := τ))

structure Scheduler (ω τ : Type _) where
  mTaskQueue : TaskPriorityQueue ω τ
  mCurrentTick : UInt32

namespace Scheduler

/-- The constructor, with the tick it reads. -/
def new (tick : UInt32) : Scheduler ω τ where
  mTaskQueue := .empty
  mCurrentTick := tick

/-- `PushTask`, the reference count of the owner aside. -/
def pushTask (s : Scheduler ω τ) (owner : ω) (task : τ) (after : UInt32) : Scheduler ω τ :=
  { s with mTaskQueue := s.mTaskQueue.push ⟨owner, task, (after + s.mCurrentTick).toNat⟩ }

/-- The first line of `DoTasks`. -/
def updateTick (s : Scheduler ω τ) (tick : UInt32) : Scheduler ω τ :=
  { s with mCurrentTick := tick }

/-- The job the loop of `DoTasks` runs next; `none` leaves the loop. -/
def dueTop (s : Scheduler ω τ) : Option (JobElement ω τ) :=
  match s.mTaskQueue.top with
  | none => none
  | some timerJobElem =>
      if s.mCurrentTick.toNat < timerJobElem.mExecutionTick then none else some timerJobElem

/-- The last line of the loop: off goes whatever is at the front by then. -/
def pop (s : Scheduler ω τ) : Scheduler ω τ :=
  { s with mTaskQueue := s.mTaskQueue.pop }

theorem dueTop_eq_some_iff {s : Scheduler ω τ} {e : JobElement ω τ} :
    s.dueTop = some e ↔
      s.mTaskQueue.top = some e ∧ e.mExecutionTick ≤ s.mCurrentTick.toNat := by
  unfold dueTop
  cases htop : s.mTaskQueue.top with
  | none => simp
  | some f =>
      by_cases hlt : (s.mCurrentTick.toNat : Int) < f.mExecutionTick
      · simp only [if_pos hlt, reduceCtorEq, Option.some.injEq, false_iff, not_and]
        rintro rfl
        omega
      · simp only [if_neg hlt, Option.some.injEq]
        constructor
        · rintro rfl
          exact ⟨rfl, by omega⟩
        · rintro ⟨rfl, -⟩
          rfl

/-- The loop leaves only when nothing queued is due. -/
theorem not_due_of_dueTop_none {s : Scheduler ω τ} (h : s.dueTop = none)
    {e : JobElement ω τ} (he : e ∈ s.mTaskQueue) :
    (s.mCurrentTick.toNat : Int) < e.mExecutionTick := by
  unfold dueTop at h
  cases htop : s.mTaskQueue.top with
  | none =>
      rw [PriorityQueue.mem_def, PriorityQueue.top_eq_none_iff.mp htop] at he
      exact absurd he List.not_mem_nil
  | some f =>
      rw [htop] at h
      have hmin := PriorityQueue.top_min htop he
      simp only [jobComparator, decide_eq_false_iff_not] at hmin
      by_cases hlt : (s.mCurrentTick.toNat : Int) < f.mExecutionTick
      · omega
      · simp [if_neg hlt] at h

/-- After a push the front is the old one or the pushed job, and the pushed
    one only when it is due strictly before the old front. -/
theorem top_pushTask {s : Scheduler ω τ} {e : JobElement ω τ} (h : s.mTaskQueue.top = some e)
    (owner : ω) (task : τ) (after : UInt32) :
    (s.pushTask owner task after).mTaskQueue.top =
      some (if e.mExecutionTick > (after + s.mCurrentTick).toNat then
        ⟨owner, task, (after + s.mCurrentTick).toNat⟩ else e) := by
  by_cases hb : e.mExecutionTick > (after + s.mCurrentTick).toNat
  · rw [if_pos hb]
    exact PriorityQueue.top_push_of_comp h (decide_eq_true hb)
  · rw [if_neg hb]
    exact PriorityQueue.top_push_of_not_comp h (decide_eq_false hb)

end Scheduler
end EasyGameServer
