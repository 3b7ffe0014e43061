/-
  EasyGameServer.Scheduler.DoTasks

  One call of `DoTasks`, whatever its tasks do.  A task may read and change a
  world of any kind and call `PushTask` any number of times; the loop runs a
  copy of the front, releases its owner, and then takes off whatever is at the
  front by then.

  A task pushed with a positive delay and a sum that does not wrap is due after
  the current tick, so it never comes before a due front: what is taken off is
  what was run.

  On a timeline such a call is a pass: its beginning, one run for each task, and
  its end.
-/

import EasyGameServer.Scheduler.Timing
import EasyGameServer.Lib.Loop

namespace EasyGameServer

open Lib

namespace Scheduler

variable {σ ω τ : Type _}

/-- What the tasks and their owners do: a task changes the world and makes some
    calls of `PushTask`, and an owner that is released may change it too. -/
structure Effects (σ ω τ : Type _) where
  mTask : σ → JobElement ω τ → σ × List (Push ω τ)
  decRefCount : σ → ω → σ

/-- A call of `DoTasks` in progress: the world of the tasks, the scheduler, and
    what the call has done so far, oldest first. -/
structure Pass (σ ω τ : Type _) where
  world : σ
  scheduler : Scheduler ω τ
  ran : List (JobElement ω τ)
  released : List ω
  pushed : List (Push ω τ)
  popped : List (JobElement ω τ)

/-- The job a call of `PushTask` queues at this tick. -/
def Push.job (q : Push ω τ) (tick : UInt32) : JobElement ω τ :=
  ⟨q.owner, q.task, (q.after + tick).toNat⟩

namespace Pass

def pushTask (p : Pass σ ω τ) (q : Push ω τ) : Pass σ ω τ :=
  { p with
    scheduler := p.scheduler.pushTask q.owner q.task q.after
    pushed := p.pushed ++ [q] }

def mTask (effects : Effects σ ω τ) (p : Pass σ ω τ) (timerJobElem : JobElement ω τ) :
    Pass σ ω τ :=
  (effects.mTask p.world timerJobElem).2.foldl pushTask
    { p with
      world := (effects.mTask p.world timerJobElem).1
      ran := p.ran ++ [timerJobElem] }

def decRefCount (effects : Effects σ ω τ) (p : Pass σ ω τ) (owner : ω) : Pass σ ω τ :=
  { p with
    world := effects.decRefCount p.world owner
    released := p.released ++ [owner] }

def pop (p : Pass σ ω τ) : Pass σ ω τ :=
  { p with
    scheduler := p.scheduler.pop
    popped := p.popped ++ p.scheduler.mTaskQueue.top.toList }

/-- The loop of `DoTasks`. -/
def doTasksBody (effects : Effects σ ω τ) (p : Pass σ ω τ) : Iter (Pass σ ω τ) (Pass σ ω τ) :=
  match p.scheduler.dueTop with
  | none => .leave p
  | some timerJobElem =>
      .again (((p.mTask effects timerJobElem).decRefCount effects timerJobElem.mOwner).pop)

/-- `DoTasks` up to its loop, called with this tick. -/
def doTasks (world : σ) (s : Scheduler ω τ) (tick : UInt32) : Pass σ ω τ where
  world := world
  scheduler := s.updateTick tick
  ran := []
  released := []
  pushed := []
  popped := []

variable {effects : Effects σ ω τ} {p p' : Pass σ ω τ} {e : JobElement ω τ} {now : UInt32}

-- ============================================================================
-- The pushes of one task
-- ============================================================================

/-- A positive delay whose sum with the tick does not wrap. -/
def Ahead (now : UInt32) (q : Push ω τ) : Prop :=
  0 < q.after.toNat ∧ q.after.toNat + now.toNat < 2 ^ 32

theorem Ahead.lt {q : Push ω τ} (h : Ahead now q) :
    (now.toNat : Int) < (q.job now).mExecutionTick := by
  obtain ⟨hpos, hsum⟩ := h
  simp only [Push.job, UInt32.toNat_add]
  omega

/-- Pushes ahead of the tick leave a due front where it is. -/
theorem foldl_pushTask_spec (pushes : List (Push ω τ)) (p : Pass σ ω τ)
    (htick : p.scheduler.mCurrentTick = now) (htop : p.scheduler.mTaskQueue.top = some e)
    (hdue : e.mExecutionTick ≤ now.toNat) (hahead : ∀ q ∈ pushes, Ahead now q) :
    (pushes.foldl pushTask p).scheduler.mTaskQueue.top = some e ∧
      (pushes.foldl pushTask p).scheduler.mCurrentTick = now ∧
      (pushes.foldl pushTask p).scheduler.mTaskQueue.toList.Perm
        (p.scheduler.mTaskQueue.toList ++ pushes.map (Push.job · now)) ∧
      (pushes.foldl pushTask p).pushed = p.pushed ++ pushes ∧
      (pushes.foldl pushTask p).ran = p.ran ∧
      (pushes.foldl pushTask p).released = p.released ∧
      (pushes.foldl pushTask p).popped = p.popped := by
  induction pushes generalizing p with
  | nil =>
      refine ⟨htop, htick, ?_, (List.append_nil _).symm, rfl, rfl, rfl⟩
      rw [List.map_nil, List.append_nil]
      exact List.Perm.refl _
  | cons q pushes ih =>
      have hlater := (hahead q List.mem_cons_self).lt
      have htop' : (p.pushTask q).scheduler.mTaskQueue.top = some e := by
        apply (top_pushTask htop q.owner q.task q.after).trans
        rw [htick, if_neg]
        change ¬ e.mExecutionTick > (q.job now).mExecutionTick
        omega
      obtain ⟨hend, htickEnd, hperm, hpushed, hrest⟩ := ih (p.pushTask q) htick htop'
        (fun q' hq' => hahead q' (List.mem_cons_of_mem _ hq'))
      refine ⟨hend, htickEnd, hperm.trans ?_, ?_, hrest⟩
      · have hone := PriorityQueue.push_perm p.scheduler.mTaskQueue (q.job now)
        subst htick
        rw [List.map_cons]
        exact (hone.append_right _).trans List.perm_middle.symm
      · rw [List.foldl_cons, hpushed]
        exact List.append_assoc ..

-- ============================================================================
-- One iteration
-- ============================================================================

/-- Every call of `PushTask` by a task that this call of `DoTasks` runs is
    ahead of the tick. -/
def PushesAhead (effects : Effects σ ω τ) (p : Pass σ ω τ) (now : UInt32) : Prop :=
  ∀ p', Heads (doTasksBody effects) p p' → ∀ e, p'.scheduler.dueTop = some e →
    ∀ q ∈ (effects.mTask p'.world e).2, Ahead now q

/-- What an iteration does: the due front is run, released and taken off. -/
structure Ran (p p' : Pass σ ω τ) (e : JobElement ω τ) (pushes : List (Push ω τ))
    (now : UInt32) : Prop where
  top : p.scheduler.mTaskQueue.top = some e
  due : e.mExecutionTick ≤ now.toNat
  ahead : ∀ q ∈ pushes, Ahead now q
  tick : p'.scheduler.mCurrentTick = now
  queue : (e :: p'.scheduler.mTaskQueue.toList).Perm
    (p.scheduler.mTaskQueue.toList ++ pushes.map (Push.job · now))
  ran : p'.ran = p.ran ++ [e]
  released : p'.released = p.released ++ [e.mOwner]
  pushed : p'.pushed = p.pushed ++ pushes
  popped : p'.popped = p.popped ++ [e]

theorem doTasksBody_again (htick : p.scheduler.mCurrentTick = now)
    (hahead : ∀ e, p.scheduler.dueTop = some e → ∀ q ∈ (effects.mTask p.world e).2, Ahead now q)
    (h : doTasksBody effects p = .again p') : ∃ e pushes, Ran p p' e pushes now := by
  unfold doTasksBody at h
  split at h
  next => cases h
  next e hdueTop =>
    cases h
    obtain ⟨htop, hdue⟩ := dueTop_eq_some_iff.mp hdueTop
    rw [htick] at hdue
    have hpushes := hahead e hdueTop
    obtain ⟨htop', htick', hqueue, hpushed, hran, hreleased, hpopped⟩ :=
      foldl_pushTask_spec (effects.mTask p.world e).2
        { p with world := (effects.mTask p.world e).1, ran := p.ran ++ [e] } htick htop hdue hpushes
    refine ⟨e, (effects.mTask p.world e).2, htop, hdue, hpushes, htick', ?_, hran, ?_, hpushed, ?_⟩
    · exact (PriorityQueue.pop_perm htop').trans hqueue
    · exact congrArg (· ++ [e.mOwner]) hreleased
    · change (p.mTask effects e).popped ++ (p.mTask effects e).scheduler.mTaskQueue.top.toList = _
      have hfront : (p.mTask effects e).scheduler.mTaskQueue.top = some e := htop'
      have hsofar : (p.mTask effects e).popped = p.popped := hpopped
      rw [hfront, hsofar]
      rfl

-- ============================================================================
-- The loop
-- ============================================================================

/-- Is this job due at the tick? -/
def isDue (now : UInt32) (e : JobElement ω τ) : Bool := e.mExecutionTick ≤ (now.toNat : Int)

/-- Midway: of the jobs queued at entry the ones run came first, the others are
    still queued, with everything that has been pushed. -/
structure Midway (entry : List (JobElement ω τ)) (now : UInt32) (p : Pass σ ω τ)
    (left : List (JobElement ω τ)) : Prop where
  tick : p.scheduler.mCurrentTick = now
  entered : entry.Perm (p.ran ++ left)
  queue : p.scheduler.mTaskQueue.toList.Perm (left ++ p.pushed.map (Push.job · now))
  due : ∀ e ∈ p.ran, e.mExecutionTick ≤ now.toNat
  ahead : ∀ q ∈ p.pushed, Ahead now q
  sorted : p.ran.Pairwise (fun a b => a.mExecutionTick ≤ b.mExecutionTick)
  first : ∀ a ∈ p.ran, ∀ b ∈ left, a.mExecutionTick ≤ b.mExecutionTick
  released : p.released = p.ran.map JobElement.mOwner
  popped : p.popped = p.ran

theorem midway_doTasks (world : σ) (s : Scheduler ω τ) (now : UInt32) :
    Midway s.mTaskQueue.toList now (doTasks world s now) s.mTaskQueue.toList where
  tick := rfl
  entered := List.Perm.refl _
  queue := by
    change s.mTaskQueue.toList.Perm (s.mTaskQueue.toList ++ [])
    rw [List.append_nil]
  due := fun e he => absurd he List.not_mem_nil
  ahead := fun q hq => absurd hq List.not_mem_nil
  sorted := List.Pairwise.nil
  first := fun a ha => absurd ha List.not_mem_nil
  released := rfl
  popped := rfl

/-- One iteration runs one more of the jobs queued at entry. -/
theorem Midway.step {entry left : List (JobElement ω τ)} {pushes : List (Push ω τ)}
    (h : Midway entry now p left) (hran : Ran p p' e pushes now) :
    ∃ left', Midway entry now p' left' ∧ left.Perm (e :: left') := by
  have hmem : e ∈ p.scheduler.mTaskQueue := PriorityQueue.mem_of_top hran.top
  have hleft : e ∈ left := by
    rcases List.mem_append.mp (h.queue.mem_iff.mp hmem) with hl | hpushed
    · exact hl
    · -- what was pushed is not due
      obtain ⟨q, hq, rfl⟩ := List.mem_map.mp hpushed
      have hlt := (h.ahead q hq).lt
      have hle := hran.due
      omega
  obtain ⟨before, after, rfl⟩ := List.append_of_mem hleft
  have hperm : (before ++ e :: after).Perm (e :: (before ++ after)) := List.perm_middle
  have hmin : ∀ b ∈ before ++ e :: after, e.mExecutionTick ≤ b.mExecutionTick := by
    intro b hb
    have hbq : b ∈ p.scheduler.mTaskQueue := h.queue.mem_iff.mpr (List.mem_append_left _ hb)
    have hnot := PriorityQueue.top_min hran.top hbq
    simp only [jobComparator, decide_eq_false_iff_not] at hnot
    omega
  refine ⟨before ++ after, ?_, hperm⟩
  constructor
  · exact hran.tick
  · rw [hran.ran, List.append_assoc]
    exact h.entered.trans (hperm.append_left _)
  · rw [hran.pushed, List.map_append, ← List.append_assoc]
    have hall := hran.queue.trans ((h.queue.append_right _).trans
      ((hperm.append_right _).append_right _))
    exact hall.cons_inv
  · intro a ha
    rw [hran.ran] at ha
    rcases List.mem_append.mp ha with ha | ha
    · exact h.due a ha
    · rw [List.mem_singleton.mp ha]
      exact hran.due
  · intro q hq
    rw [hran.pushed] at hq
    rcases List.mem_append.mp hq with hq | hq
    · exact h.ahead q hq
    · exact hran.ahead q hq
  · rw [hran.ran, List.pairwise_append]
    refine ⟨h.sorted, List.pairwise_singleton _ _, fun a ha b hb => ?_⟩
    rw [List.mem_singleton.mp hb]
    exact h.first a ha e hleft
  · intro a ha b hb
    have hb' : b ∈ before ++ e :: after := hperm.mem_iff.mpr (List.mem_cons_of_mem _ hb)
    rw [hran.ran] at ha
    rcases List.mem_append.mp ha with ha | ha
    · exact h.first a ha b hb'
    · rw [List.mem_singleton.mp ha]
      exact hmin b hb'
  · rw [hran.released, hran.ran, List.map_append, h.released]
    rfl
  · rw [hran.popped, hran.ran, h.popped]

/-- When the loop leaves, what was run is what was due. -/
theorem Midway.leave {entry left : List (JobElement ω τ)} (h : Midway entry now p left)
    (hleave : p.scheduler.dueTop = none) :
    p.ran.Perm (entry.filter (isDue now)) ∧ left.Perm (entry.filter (fun e => !isDue now e)) := by
  have hran : p.ran.filter (isDue now) = p.ran :=
    List.filter_eq_self.mpr (fun e he => decide_eq_true (h.due e he))
  have hleft : ∀ e ∈ left, isDue now e = false := by
    intro e he
    have hqueued : e ∈ p.scheduler.mTaskQueue := h.queue.mem_iff.mpr (List.mem_append_left _ he)
    have hlt := not_due_of_dueTop_none hleave hqueued
    rw [h.tick] at hlt
    apply decide_eq_false
    omega
  have hnone : left.filter (isDue now) = [] :=
    List.filter_eq_nil_iff.mpr (fun e he => ne_true_of_eq_false (hleft e he))
  have hran' : p.ran.filter (fun e => !isDue now e) = [] :=
    List.filter_eq_nil_iff.mpr (fun e he => by simp [isDue, h.due e he])
  have hleft' : left.filter (fun e => !isDue now e) = left :=
    List.filter_eq_self.mpr (fun e he => by simp [hleft e he])
  constructor
  · have hperm := h.entered.filter (isDue now)
    rw [List.filter_append, hran, hnone, List.append_nil] at hperm
    exact hperm.symm
  · have hperm := h.entered.filter (fun e => !isDue now e)
    rw [List.filter_append, hran', hleft', List.nil_append] at hperm
    exact hperm.symm

/-- **One call of `DoTasks`.**  Whatever is queued and whatever the tasks do, as
    long as those that are run push only ahead of the tick: the loop ends; it
    has run the queued jobs that were due, each once and the earliest first,
    released the owner of each once, taken off the jobs it had run, and left
    the others with everything that was pushed. -/
theorem doTasks_runs_due (effects : Effects σ ω τ) (world : σ) (s : Scheduler ω τ) (now : UInt32)
    (hahead : PushesAhead effects (doTasks world s now) now) :
    ∃ n p, loop (doTasksBody effects) n (doTasks world s now) = some p ∧
      p.ran.Perm (s.mTaskQueue.toList.filter (isDue now)) ∧
      p.ran.Pairwise (fun a b => a.mExecutionTick ≤ b.mExecutionTick) ∧
      p.released = p.ran.map JobElement.mOwner ∧ p.popped = p.ran ∧
      p.scheduler.mTaskQueue.toList.Perm
        (s.mTaskQueue.toList.filter (fun e => !isDue now e) ++ p.pushed.map (Push.job · now)) := by
  let I : Pass σ ω τ → Prop := fun p => Heads (doTasksBody effects) (doTasks world s now) p ∧
    ∃ left, Midway s.mTaskQueue.toList now p left
  have hentry : I (doTasks world s now) := ⟨.entry _, _, midway_doTasks world s now⟩
  have hstep : ∀ p p', I p → doTasksBody effects p = .again p' →
      I p' ∧ s.mTaskQueue.toList.length - p'.ran.length
        < s.mTaskQueue.toList.length - p.ran.length := by
    rintro p p' ⟨hheads, left, hmid⟩ hbody
    obtain ⟨e, pushes, hran⟩ := doTasksBody_again hmid.tick (hahead p hheads) hbody
    obtain ⟨left', hmid', hleft⟩ := hmid.step hran
    refine ⟨⟨.next hheads hbody, left', hmid'⟩, ?_⟩
    have hlength := hmid.entered.length_eq
    have hlength' := hmid'.entered.length_eq
    have hone := hleft.length_eq
    simp only [List.length_append, List.length_cons] at hlength hlength' hone
    omega
  have hleave : ∀ p r, I p → doTasksBody effects p = .leave r →
      I r ∧ r.scheduler.dueTop = none := by
    intro p r hI hbody
    unfold doTasksBody at hbody
    split at hbody
    next hnone =>
      cases hbody
      exact ⟨hI, hnone⟩
    next => cases hbody
  obtain ⟨n, p, hloop⟩ := terminates_of_measure I _ hstep _ hentry
  obtain ⟨⟨-, left, hmid⟩, hnone⟩ :=
    loop_result I (fun r => I r ∧ r.scheduler.dueTop = none)
      (fun p p' hI hbody => (hstep p p' hI hbody).1) hleave hentry hloop
  obtain ⟨hran, hleft⟩ := hmid.leave hnone
  exact ⟨n, p, hloop, hran, hmid.sorted, hmid.released, hmid.popped,
    hmid.queue.trans (hleft.append_right _)⟩

/-- A due task that queues itself again runs once. -/
theorem doTasks_runs_due_rearmed :
    ∃ n p, loop (doTasksBody ⟨fun count e => (count + 1, [⟨e.mOwner, e.mTask, 10⟩]),
        fun count _ => count⟩) n
        (doTasks 0 (((Scheduler.new 0).pushTask 'a' "tick" 3).pushTask 'b' "tick" 9) 5) = some p ∧
      p.ran.length = 1 ∧ p.popped = p.ran := by
  obtain ⟨n, p, hloop, hran, -, -, hpopped, -⟩ := doTasks_runs_due
    ⟨fun count e => (count + 1, [⟨e.mOwner, e.mTask, 10⟩]), fun count _ => count⟩ 0
    (((Scheduler.new 0).pushTask 'a' "tick" 3).pushTask 'b' "tick" 9) 5
    (by
      intro p' _ e _ q hq
      rw [List.mem_singleton.mp hq]
      change 0 < (10 : UInt32).toNat ∧ (10 : UInt32).toNat + (5 : UInt32).toNat < 2 ^ 32
      decide)
  exact ⟨n, p, hloop, hran.length_eq, hpopped⟩

-- ============================================================================
-- Against real time
-- ============================================================================

/-- A call of `PushTask` in pass `k`, at real time `real`, with what is booked
    for it. -/
def booked (real k : Nat) (q : Push ω τ) : Push ω (Booking τ) :=
  ⟨q.owner, ⟨q.task, real + q.after.toNat, k⟩, q.after⟩

/-- The timeline is in pass `k`, which this call of `DoTasks` is. -/
structure OnTimeline (t : Timeline ω τ) (real k : Nat) (p : Pass σ ω (Booking τ)) : Prop where
  scheduler : t.scheduler = p.scheduler
  inPass : t.inPass = true
  pass : t.pass = k
  time : t.time k = real

section Timeline

variable {effects : Effects σ ω (Booking τ)} {p p' : Pass σ ω (Booking τ)} {t : Timeline ω τ}
  {real k : Nat} {calls : σ → JobElement ω (Booking τ) → List (Push ω τ)}

/-- The pushes of one task are booked. -/
theorem OnTimeline.bookAll (h : OnTimeline t real k p) (qs : List (Push ω τ)) :
    let t' := qs.foldl (fun t q => t.book t.pass q) t
    let p' := (qs.map (booked real k)).foldl pushTask p
    OnTimeline t' real k p' ∧ t'.executed = t.executed ∧ p'.ran = p.ran := by
  induction qs generalizing t p with
  | nil => exact ⟨h, rfl, rfl⟩
  | cons q qs ih =>
      have hnext : OnTimeline (t.book t.pass q) real k (p.pushTask (booked real k q)) := by
        refine ⟨?_, h.inPass, h.pass, h.time⟩
        show t.scheduler.pushTask q.owner ⟨q.task, t.time t.pass + q.after.toNat, t.pass⟩ q.after
          = p.scheduler.pushTask q.owner ⟨q.task, real + q.after.toNat, k⟩ q.after
        rw [h.scheduler, h.pass, h.time]
      exact ih hnext

/-- An iteration of the loop is a run of the timeline. -/
theorem OnTimeline.again (h : OnTimeline t real k p)
    (hcalls : ∀ w e, (effects.mTask w e).2 = (calls w e).map (booked real k))
    (hbody : doTasksBody effects p = .again p') :
    ∃ e t', t.step (.run (calls p.world e)) = some t' ∧ OnTimeline t' real k p' ∧
      p'.ran = p.ran ++ [e] ∧ t'.executed = (e.mTask, k) :: t.executed := by
  unfold doTasksBody at hbody
  split at hbody
  next => cases hbody
  next e hdue =>
    cases hbody
    have hstart : OnTimeline t real k
        { p with world := (effects.mTask p.world e).1, ran := p.ran ++ [e] } :=
      ⟨h.scheduler, h.inPass, h.pass, h.time⟩
    obtain ⟨hbooked, hexecuted, hran⟩ := hstart.bookAll (calls p.world e)
    rw [← hcalls] at hbooked hran
    have hdue' : t.scheduler.dueTop = some e := h.scheduler ▸ hdue
    refine ⟨e, _, by rw [Timeline.step, if_pos h.inPass, hdue'], ?_, hran, ?_⟩
    · exact ⟨congrArg Scheduler.pop hbooked.scheduler, hbooked.inPass, hbooked.pass, hbooked.time⟩
    · rw [hexecuted, h.pass]

/-- Leaving it ends the pass. -/
theorem OnTimeline.leave (h : OnTimeline t real k p) (hbody : doTasksBody effects p = .leave p') :
    p' = p ∧ t.step .finish = some { t with inPass := false } := by
  unfold doTasksBody at hbody
  split at hbody
  next hnone =>
    cases hbody
    refine ⟨rfl, ?_⟩
    have hnone' : t.scheduler.dueTop.isNone = true := by rw [h.scheduler, hnone]; rfl
    rw [Timeline.step, if_pos ⟨h.inPass, hnone'⟩]
  next => cases hbody

theorem OnTimeline.loop {n : Nat} (h : OnTimeline t real k p)
    (hcalls : ∀ w e, (effects.mTask w e).2 = (calls w e).map (booked real k))
    (hloop : loop (doTasksBody effects) n p = some p') :
    ∃ (runs : List (List (Push ω τ))) (t' : Timeline ω τ) (ran : List (JobElement ω (Booking τ))),
      (Timeline.system ω τ).run t (runs.map Event.run ++ [.finish]) = some t' ∧
      t'.scheduler = p'.scheduler ∧ p'.ran = p.ran ++ ran ∧
      t'.executed = (ran.map (fun e => (e.mTask, k))).reverse ++ t.executed := by
  induction n generalizing t p with
  | zero => cases hloop
  | succ n ih =>
      cases hbody : doTasksBody effects p with
      | leave r =>
          rw [loop_succ_leave hbody] at hloop
          cases hloop
          obtain ⟨rfl, hfinish⟩ := h.leave hbody
          refine ⟨[], { t with inPass := false }, [], ?_, h.scheduler,
            (List.append_nil _).symm, rfl⟩
          exact Option.bind_eq_some_iff.mpr ⟨_, hfinish, rfl⟩
      | again next =>
          rw [loop_succ_again hbody] at hloop
          obtain ⟨e, t₁, hstep, hnext, hran, hexecuted⟩ := h.again hcalls hbody
          obtain ⟨runs, t', ran, hrun, hscheduler, hran', hexecuted'⟩ := ih hnext hloop
          refine ⟨calls p.world e :: runs, t', e :: ran, ?_, hscheduler, ?_, ?_⟩
          · exact Option.bind_eq_some_iff.mpr ⟨t₁, hstep, hrun⟩
          · rw [hran', hran, List.append_assoc]
            rfl
          · rw [hexecuted', hexecuted, List.map_cons, List.reverse_cons, List.append_assoc]
            rfl

/-- A call of `DoTasks` whose tasks make these calls of `PushTask` is a pass of
    the timeline: it runs the same tasks and leaves the same queue. -/
theorem doTasks_timeline {n : Nat} {world : σ} (hbetween : t.inPass = false)
    (hnow : t.time t.pass ≤ real)
    (hcalls : ∀ w e, (effects.mTask w e).2 = (calls w e).map (booked real (t.pass + 1)))
    (hloop : loop (doTasksBody effects) n (doTasks world t.scheduler (UInt32.ofNat real))
      = some p) :
    ∃ (runs : List (List (Push ω τ))) (t' : Timeline ω τ),
      (Timeline.system ω τ).run t (.begin real :: (runs.map Event.run ++ [.finish]))
        = some t' ∧ t'.scheduler = p.scheduler ∧
      t'.executed = (p.ran.map (fun e => (e.mTask, t.pass + 1))).reverse ++ t.executed := by
  have hnot : ¬ (t.inPass = true ∨ real < t.time t.pass) := by
    rw [hbetween]
    rintro (hin | hlt)
    · cases hin
    · exact absurd hnow (Nat.not_le.mpr hlt)
  let t₁ : Timeline ω τ := { t with
    scheduler := t.scheduler.updateTick (UInt32.ofNat real)
    pass := t.pass + 1
    time := fun k => if k = t.pass + 1 then real else t.time k
    inPass := true }
  have hbegin : t.step (.begin real) = some t₁ := by
    rw [Timeline.step, if_neg hnot]
  have hstart : OnTimeline t₁ real (t.pass + 1) (doTasks world t.scheduler (UInt32.ofNat real)) :=
    ⟨rfl, rfl, rfl, if_pos rfl⟩
  obtain ⟨runs, t', ran, hrun, hscheduler, hran, hexecuted⟩ := hstart.loop hcalls hloop
  rw [hran]
  exact ⟨runs, t', Option.bind_eq_some_iff.mpr ⟨_, hbegin, hrun⟩, hscheduler, hexecuted⟩

end Timeline

end Pass
end Scheduler
end EasyGameServer
