/-
  EasyGameServer.Scheduler.Timing

  The scheduler against real time.  A `Timeline` runs the scheduler's own
  operations at real times in milliseconds, of which `GetTickCount` sees the
  remainder modulo 2^32, and books every task with the time it is really due
  (`due`) and the first pass that can see it (`since`).

  A task is on time when the pass that runs it is the first pass from `since`
  on that is not before `due`.  Two things spoil that: a sum that wraps while
  the pass it is computed in is still going on, and a pass that starts on the
  other side of a wrap than the due time of a queued task.  `ok` excludes both,
  step by step, and under it every task is on time.
-/

import EasyGameServer.Scheduler.Basic
import EasyGameServer.Lib.Lts
import Mathlib.Algebra.Group.Nat.Defs

namespace EasyGameServer

open Lib

namespace Scheduler

/-- A task with the time it is due and the first pass that can see it. -/
structure Booking (τ : Type _) where
  task : τ
  due : Nat
  since : Nat

structure Timeline (ω τ : Type _) where
  scheduler : Scheduler ω (Booking τ)
  /-- The number of the current pass, or of the last one; 0 is the constructor. -/
  pass : Nat
  /-- The real times of passes. -/
  time : Nat → Nat
  inPass : Bool
  pushed : List (Booking τ)
  /-- The tasks run, each with the number of the pass that ran it. -/
  executed : List (Booking τ × Nat)

/-- A call `PushTask(owner, task, after)`. -/
structure Push (ω τ : Type _) where
  owner : ω
  task : τ
  after : UInt32

inductive Event (ω τ : Type _) where
  /-- A call of `PushTask` between two passes. -/
  | push (p : Push ω τ)
  /-- `DoTasks` is called at real time `now`. -/
  | begin (now : Nat)
  /-- One iteration of its loop, whose task makes these calls of `PushTask`. -/
  | run (ps : List (Push ω τ))
  /-- The loop is left. -/
  | finish

namespace Timeline

variable {ω τ : Type _}

/-- `PushTask` in pass `t.pass`, for a task that pass `since` is the first to see. -/
def book (t : Timeline ω τ) (since : Nat) (p : Push ω τ) : Timeline ω τ :=
  let b : Booking τ := ⟨p.task, t.time t.pass + p.after.toNat, since⟩
  { t with
    scheduler := t.scheduler.pushTask p.owner b p.after
    pushed := b :: t.pushed }

def step (t : Timeline ω τ) : Event ω τ → Option (Timeline ω τ)
  | .push p => if t.inPass then none else some (t.book (t.pass + 1) p)
  | .begin now =>
      if t.inPass ∨ now < t.time t.pass then none
      else
        some { t with
          scheduler := t.scheduler.updateTick (UInt32.ofNat now)
          pass := t.pass + 1
          time := fun k => if k = t.pass + 1 then now else t.time k
          inPass := true }
  | .run ps =>
      if t.inPass then
        match t.scheduler.dueTop with
        | none => none
        | some e =>
            let t' := ps.foldl (fun t p => t.book t.pass p) t
            some { t' with
              scheduler := t'.scheduler.pop
              executed := (e.mTask, t.pass) :: t'.executed }
      else none
  | .finish =>
      if t.inPass ∧ t.scheduler.dueTop.isNone then some { t with inPass := false } else none

/-- A scheduler constructed at some real time. -/
def start (now : Nat) : Timeline ω τ where
  scheduler := .new (UInt32.ofNat now)
  pass := 0
  time := fun _ => now
  inPass := false
  pushed := []
  executed := []

def system (ω τ : Type _) : System (Timeline ω τ) (Event ω τ) where
  init t := ∃ now, t = start now
  step := step

/-- The step stays clear of the wrap: a task is pushed during a pass only
    while its sum does not wrap, and a pass starts only when, for every queued
    task, tick and wrapped due time compare as real time and due time do. -/
def ok (t : Timeline ω τ) : Event ω τ → Prop
  | .push _ => True
  | .begin now =>
      ∀ e ∈ t.scheduler.mTaskQueue, e.mTask.due % 2 ^ 32 ≤ now % 2 ^ 32 ↔ e.mTask.due ≤ now
  | .run ps => ∀ p ∈ ps, t.time t.pass % 2 ^ 32 + p.after.toNat < 2 ^ 32
  | .finish => True

/-- Pass `k` is the first from `b.since` on at a real time not below `b.due`. -/
structure FirstDue (t : Timeline ω τ) (b : Booking τ) (k : Nat) : Prop where
  since : b.since ≤ k
  due : b.due ≤ t.time k
  first : ∀ j, b.since ≤ j → j < k → t.time j < b.due

/-- The passes that are over. -/
def Finished (t : Timeline ω τ) (k : Nat) : Prop := k < t.pass ∨ (k = t.pass ∧ t.inPass = false)

/-! ## The invariant -/

/-- What holds of a queued job. -/
structure Queued (t : Timeline ω τ) (e : JobElement ω (Booking τ)) : Prop where
  tick : e.mExecutionTick = ((e.mTask.due % 2 ^ 32 : Nat) : Int)
  notYet : ∀ j, e.mTask.since ≤ j → t.Finished j → t.time j < e.mTask.due
  seen : e.mTask.since ≤ if t.inPass then t.pass else t.pass + 1
  side : t.inPass = true →
    (e.mTask.due % 2 ^ 32 ≤ t.time t.pass % 2 ^ 32 ↔ e.mTask.due ≤ t.time t.pass)

structure Inv (t : Timeline ω τ) : Prop where
  tick : t.scheduler.mCurrentTick.toNat = t.time t.pass % 2 ^ 32
  queued : ∀ e ∈ t.scheduler.mTaskQueue, t.Queued e
  onTime : ∀ b k, (b, k) ∈ t.executed → t.FirstDue b k ∧ k ≤ t.pass
  once : t.pushed.Perm
    (t.executed.map Prod.fst ++ t.scheduler.mTaskQueue.toList.map JobElement.mTask)

theorem inv_start (now : Nat) : (start now : Timeline ω τ).Inv where
  tick := by simp [start, new]
  queued := by
    intro e he
    exact absurd he List.not_mem_nil
  onTime := by
    intro b k h
    exact absurd h List.not_mem_nil
  once := List.Perm.refl _

/-- The tick `PushTask` stores is the due time's remainder. -/
theorem tick_book {t : Timeline ω τ} (h : t.Inv) (p : Push ω τ) :
    (p.after + t.scheduler.mCurrentTick).toNat
      = (t.time t.pass + p.after.toNat) % 2 ^ 32 := by
  rw [UInt32.toNat_add, h.tick, Nat.add_comm, Nat.mod_add_mod]

/-- Booking a task keeps the invariant, when the task is one no finished pass
    could see and, during a pass, one whose sum does not wrap. -/
theorem Inv.book {t : Timeline ω τ} (h : t.Inv) {since : Nat} (p : Push ω τ)
    (hnew : ∀ j, since ≤ j → ¬ t.Finished j)
    (hseen : since ≤ if t.inPass then t.pass else t.pass + 1)
    (hwrap : t.inPass = true → t.time t.pass % 2 ^ 32 + p.after.toNat < 2 ^ 32) :
    (t.book since p).Inv where
  tick := h.tick
  queued := by
    intro e he
    rcases PriorityQueue.mem_push.mp he with rfl | he
    · refine ⟨?_, fun j hj hfin => absurd hfin (hnew j hj), hseen, ?_⟩
      · exact congrArg Nat.cast (tick_book h p)
      · intro hin
        have hlt := hwrap hin
        show (t.time t.pass + p.after.toNat) % 2 ^ 32 ≤ t.time t.pass % 2 ^ 32
          ↔ t.time t.pass + p.after.toNat ≤ t.time t.pass
        rw [Nat.add_mod, Nat.mod_eq_of_lt (b := 2 ^ 32) p.after.toNat_lt, Nat.mod_eq_of_lt hlt]
        omega
    · obtain ⟨htick, hnot, hs, hside⟩ := h.queued e he
      exact ⟨htick, hnot, hs, hside⟩
  onTime := by
    intro b k hb
    obtain ⟨⟨hs, hd, hf⟩, hk⟩ := h.onTime b k hb
    exact ⟨⟨hs, hd, hf⟩, hk⟩
  once := by
    have hperm := PriorityQueue.push_perm t.scheduler.mTaskQueue
      ⟨p.owner, ⟨p.task, t.time t.pass + p.after.toNat, since⟩,
        (p.after + t.scheduler.mCurrentTick).toNat⟩
    have hmap := hperm.map JobElement.mTask
    exact ((h.once.cons _).trans List.perm_middle.symm).trans (hmap.symm.append_left _)

theorem Inv.bookDuringPass {t : Timeline ω τ} (h : t.Inv) (hin : t.inPass = true)
    {p : Push ω τ} (hwrap : t.time t.pass % 2 ^ 32 + p.after.toNat < 2 ^ 32) :
    (t.book t.pass p).Inv := by
  refine h.book p ?_ (by rw [if_pos hin]) (fun _ => hwrap)
  rintro j hj (hlt | ⟨-, hfalse⟩)
  · omega
  · exact absurd (hin.symm.trans hfalse) (by decide)

/-- The pushes of a running task keep the invariant and the front. -/
theorem Inv.bookAll {ps : List (Push ω τ)} {t : Timeline ω τ} (h : t.Inv)
    (hin : t.inPass = true) {e : JobElement ω (Booking τ)}
    (htop : t.scheduler.dueTop = some e)
    (hwrap : ∀ p ∈ ps, t.time t.pass % 2 ^ 32 + p.after.toNat < 2 ^ 32) :
    let t' := ps.foldl (fun t p => t.book t.pass p) t
    t'.Inv ∧ t'.scheduler.dueTop = some e ∧ t'.pass = t.pass ∧ t'.time = t.time ∧
      t'.inPass = true ∧ t'.executed = t.executed := by
  induction ps generalizing t with
  | nil => exact ⟨h, htop, rfl, rfl, hin, rfl⟩
  | cons p ps ih =>
      have hp := hwrap p List.mem_cons_self
      have hb := h.bookDuringPass hin hp
      obtain ⟨hfront, hdue⟩ := dueTop_eq_some_iff.mp htop
      -- the pushed tick is not below the current one, so not below the front's
      have hle : t.scheduler.mCurrentTick.toNat
          ≤ (p.after + t.scheduler.mCurrentTick).toNat := by
        rw [tick_book h p, h.tick, Nat.add_mod, Nat.mod_eq_of_lt (b := 2 ^ 32) p.after.toNat_lt,
          Nat.mod_eq_of_lt hp]
        omega
      have htop' : (t.book t.pass p).scheduler.dueTop = some e := by
        refine dueTop_eq_some_iff.mpr ⟨?_, hdue⟩
        have := top_pushTask hfront p.owner
          (⟨p.task, t.time t.pass + p.after.toNat, t.pass⟩ : Booking τ) p.after
        rwa [if_neg (by omega)] at this
      obtain ⟨h₁, h₂, h₃, h₄, h₅, h₆⟩ := ih hb hin htop'
        (fun q hq => hwrap q (List.mem_cons_of_mem _ hq))
      exact ⟨h₁, h₂, h₃, h₄, h₅, h₆⟩

/-- Running the due front keeps the invariant: it is due in this pass, and was
    in no earlier one. -/
theorem Inv.runTop {t : Timeline ω τ} (h : t.Inv) (hin : t.inPass = true)
    {e : JobElement ω (Booking τ)} (htop : t.scheduler.dueTop = some e) :
    Inv { t with
      scheduler := t.scheduler.pop
      executed := (e.mTask, t.pass) :: t.executed } := by
  obtain ⟨hfront, hdue⟩ := dueTop_eq_some_iff.mp htop
  obtain ⟨htick, hnot, hseen, hside⟩ := h.queued e (PriorityQueue.mem_of_top hfront)
  have hpop := PriorityQueue.pop_perm hfront
  refine ⟨h.tick, ?_, ?_, ?_⟩
  · intro f hf
    have hmem : f ∈ t.scheduler.mTaskQueue := by
      rw [PriorityQueue.mem_def, ← hpop.mem_iff]
      exact List.mem_cons_of_mem _ hf
    obtain ⟨h₁, h₂, h₃, h₄⟩ := h.queued f hmem
    exact ⟨h₁, h₂, h₃, h₄⟩
  · intro b k hb
    rcases List.mem_cons.mp hb with heq | hb
    · cases heq
      have hnow : e.mTask.due ≤ t.time t.pass := by
        apply (hside hin).mp
        rw [htick, h.tick] at hdue
        omega
      rw [if_pos hin] at hseen
      refine ⟨⟨hseen, hnow, ?_⟩, Nat.le_refl _⟩
      intro j hj hlt
      exact hnot j hj (Or.inl hlt)
    · obtain ⟨⟨hs, hd, hf⟩, hk⟩ := h.onTime b k hb
      exact ⟨⟨hs, hd, hf⟩, hk⟩
  · have hmap := hpop.map JobElement.mTask
    refine h.once.trans ?_
    exact (hmap.symm.append_left _).trans List.perm_middle

/-- Starting a pass keeps the invariant when no queued task's due time is
    across a wrap. -/
theorem Inv.beginPass {t : Timeline ω τ} (h : t.Inv) (hin : t.inPass = false) (now : Nat)
    (hok : t.ok (.begin now)) :
    Inv { t with
      scheduler := t.scheduler.updateTick (UInt32.ofNat now)
      pass := t.pass + 1
      time := fun k => if k = t.pass + 1 then now else t.time k
      inPass := true } := by
  refine ⟨?_, ?_, ?_, h.once⟩
  · show (UInt32.ofNat now).toNat = (if t.pass + 1 = t.pass + 1 then now else _) % 2 ^ 32
    rw [if_pos rfl, UInt32.toNat_ofNat']
  · intro e he
    obtain ⟨htick, hnot, hseen, -⟩ := h.queued e he
    rw [hin] at hseen
    refine ⟨htick, ?_, hseen, fun _ => ?_⟩
    · rintro j hj (hlt | ⟨-, hfalse⟩)
      · have hfin : t.Finished j := by
          rcases Nat.lt_or_ge j t.pass with hlt' | hge
          · exact Or.inl hlt'
          · exact Or.inr ⟨Nat.le_antisymm (Nat.le_of_lt_succ hlt) hge, hin⟩
        have hne : j ≠ t.pass + 1 := Nat.ne_of_lt hlt
        simpa only [if_neg hne] using hnot j hj hfin
      · cases hfalse
    · simpa only [if_pos] using hok e he
  · intro b k hb
    obtain ⟨⟨hs, hd, hf⟩, hk⟩ := h.onTime b k hb
    refine ⟨⟨hs, ?_, ?_⟩, Nat.le_succ_of_le hk⟩
    · simpa only [if_neg (show k ≠ t.pass + 1 by omega)] using hd
    · intro j hj hlt
      simpa only [if_neg (show j ≠ t.pass + 1 by omega)] using hf j hj hlt

/-- Leaving the loop keeps the invariant: what stays queued was not due. -/
theorem Inv.finish {t : Timeline ω τ} (h : t.Inv) (hin : t.inPass = true)
    (hnone : t.scheduler.dueTop = none) : Inv { t with inPass := false } := by
  refine ⟨h.tick, ?_, ?_, h.once⟩
  · intro e he
    obtain ⟨htick, hnot, hseen, hside⟩ := h.queued e he
    rw [if_pos hin] at hseen
    refine ⟨htick, ?_, Nat.le_succ_of_le hseen, nofun⟩
    rintro j hj (hlt | ⟨rfl, -⟩)
    · exact hnot j hj (Or.inl hlt)
    · have hlate := not_due_of_dueTop_none hnone he
      rw [htick, h.tick] at hlate
      have hside' := hside hin
      show t.time t.pass < e.mTask.due
      omega
  · intro b k hb
    obtain ⟨⟨hs, hd, hf⟩, hk⟩ := h.onTime b k hb
    exact ⟨⟨hs, hd, hf⟩, hk⟩

theorem isInvariant : (system ω τ).IsInvariant ok Inv where
  init := by
    rintro t ⟨now, rfl⟩
    exact inv_start now
  step := by
    intro t a t' _ h hok hstep
    cases a with
    | push p =>
        cases hin : t.inPass with
        | true => simp [system, step, hin] at hstep
        | false =>
            simp only [system, step, hin, Bool.false_eq_true, if_false,
              Option.some.injEq] at hstep
            subst hstep
            refine h.book p ?_ (by simp [hin]) (by simp [hin])
            rintro j hj (hlt | ⟨heq, -⟩) <;> omega
    | begin now =>
        simp only [system, step] at hstep
        split at hstep
        · cases hstep
        next hc =>
          cases hstep
          exact h.beginPass (by simpa using (not_or.mp hc).1) now hok
    | run ps =>
        cases hin : t.inPass with
        | false => simp [system, step, hin] at hstep
        | true =>
            simp only [system, step, hin, if_true] at hstep
            cases htop : t.scheduler.dueTop with
            | none =>
                rw [htop] at hstep
                cases hstep
            | some e =>
                rw [htop] at hstep
                cases hstep
                obtain ⟨hinv, htop', hpass, -, hin', -⟩ := h.bookAll hin htop hok
                simpa only [hpass] using hinv.runTop hin' htop'
    | finish =>
        simp only [system, step] at hstep
        split at hstep
        next hc =>
          cases hstep
          exact h.finish hc.1 (Option.isNone_iff_eq_none.mp hc.2)
        · cases hstep

/-! ## Passes end -/

/-- The queued jobs that the current pass still has to run. -/
def dueCount (s : Scheduler ω (Booking τ)) : Nat :=
  s.mTaskQueue.toList.countP (fun e => decide (e.mExecutionTick ≤ (s.mCurrentTick.toNat : Int)))

/-- A push with a positive delay and no wrap adds nothing to the current pass. -/
theorem dueCount_book {t : Timeline ω τ} (h : t.Inv) {p : Push ω τ} (since : Nat)
    (hpos : 0 < p.after.toNat) (hwrap : t.time t.pass % 2 ^ 32 + p.after.toNat < 2 ^ 32) :
    dueCount (t.book since p).scheduler = dueCount t.scheduler := by
  have hperm := PriorityQueue.push_perm t.scheduler.mTaskQueue
    ⟨p.owner, (⟨p.task, t.time t.pass + p.after.toNat, since⟩ : Booking τ),
      (p.after + t.scheduler.mCurrentTick).toNat⟩
  have hlate : ¬ (((p.after + t.scheduler.mCurrentTick).toNat : Int)
      ≤ t.scheduler.mCurrentTick.toNat) := by
    rw [tick_book h p, h.tick, Nat.add_mod, Nat.mod_eq_of_lt (b := 2 ^ 32) p.after.toNat_lt,
      Nat.mod_eq_of_lt hwrap]
    omega
  exact (hperm.countP_eq _).trans
    (List.countP_cons_of_neg (fun hc => hlate (of_decide_eq_true hc)))

theorem dueCount_bookAll {ps : List (Push ω τ)} {t : Timeline ω τ} (h : t.Inv)
    (hin : t.inPass = true) (hpos : ∀ p ∈ ps, 0 < p.after.toNat)
    (hwrap : ∀ p ∈ ps, t.time t.pass % 2 ^ 32 + p.after.toNat < 2 ^ 32) :
    dueCount (ps.foldl (fun t p => t.book t.pass p) t).scheduler = dueCount t.scheduler := by
  induction ps generalizing t with
  | nil => rfl
  | cons p ps ih =>
      have hp := hwrap p List.mem_cons_self
      have hb := h.bookDuringPass hin hp
      have hrest := ih hb hin (fun q hq => hpos q (List.mem_cons_of_mem _ hq))
        (fun q hq => hwrap q (List.mem_cons_of_mem _ hq))
      exact hrest.trans (dueCount_book h t.pass (hpos p List.mem_cons_self) hp)

/-- When tasks push with positive delays, every iteration of the loop leaves
    one due job less, so the pass ends. -/
theorem dueCount_run {t t' : Timeline ω τ} (h : t.Inv) {ps : List (Push ω τ)}
    (hok : t.ok (.run ps)) (hpos : ∀ p ∈ ps, 0 < p.after.toNat)
    (hstep : t.step (.run ps) = some t') :
    dueCount t'.scheduler + 1 = dueCount t.scheduler := by
  cases hin : t.inPass with
  | false => simp [step, hin] at hstep
  | true =>
      simp only [step, hin, if_true] at hstep
      cases htop : t.scheduler.dueTop with
      | none =>
          rw [htop] at hstep
          cases hstep
      | some e =>
          rw [htop] at hstep
          cases hstep
          obtain ⟨-, htop', -⟩ := h.bookAll hin htop hok
          have hsame := dueCount_bookAll h hin hpos hok
          obtain ⟨hfront, hdue⟩ := dueTop_eq_some_iff.mp htop'
          have hperm := PriorityQueue.pop_perm hfront
          rw [← hsame]
          refine Eq.trans ?_ (hperm.countP_eq _)
          rw [List.countP_cons_of_pos (by simpa using hdue)]
          rfl

/-! ## On time -/

/-- **On time.**  In every run whose steps stay clear of the wrap, a task that
    ran was run by the first pass that was not before its due time, by the end
    of such a pass the task has been run, no task is run twice or lost, and a
    pass whose tasks push with positive delays ends. -/
theorem reachable_onTime {t : Timeline ω τ} (h : (system ω τ).ReachableBy ok t) :
    (∀ b k, (b, k) ∈ t.executed → t.FirstDue b k) ∧
      (∀ b ∈ t.pushed, ∀ k, t.Finished k → b.since ≤ k → b.due ≤ t.time k →
        ∃ j, j ≤ k ∧ (b, j) ∈ t.executed) ∧
      t.pushed.Perm
        (t.executed.map Prod.fst ++ t.scheduler.mTaskQueue.toList.map JobElement.mTask) ∧
      (∀ ps t', t.ok (.run ps) → (∀ p ∈ ps, 0 < p.after.toNat) →
        t.step (.run ps) = some t' → dueCount t'.scheduler < dueCount t.scheduler) := by
  have hinv := isInvariant.holds h
  refine ⟨fun b k hb => (hinv.onTime b k hb).1, ?_, hinv.once, ?_⟩
  · intro b hb k hfin hsince hdue
    rcases List.mem_append.mp (hinv.once.mem_iff.mp hb) with hex | hq
    · obtain ⟨⟨b', j⟩, hmem, rfl⟩ := List.mem_map.mp hex
      refine ⟨j, ?_, hmem⟩
      by_contra hlt
      have hearly : t.time k < b'.due :=
        (hinv.onTime b' j hmem).1.first k hsince (Nat.lt_of_not_le hlt)
      exact absurd hdue (Nat.not_le_of_lt hearly)
    · obtain ⟨e, he, rfl⟩ := List.mem_map.mp hq
      have hearly := (hinv.queued e he).notYet k hsince hfin
      exact absurd hdue (Nat.not_le_of_lt hearly)
  · intro ps t' hok hpos hstep
    have := dueCount_run hinv hok hpos hstep
    omega

/-- One task, pushed at 0 with a delay of a second and run by a pass at 1000. -/
theorem reachable_onTime_second :
    ∃ t, (system Unit Unit).ReachableBy ok t ∧ t.inPass = false ∧
      t.FirstDue ⟨(), 1000, 1⟩ 1 := by
  have h₀ : (system Unit Unit).ReachableBy ok (start 0) := .init ⟨0, rfl⟩
  have h₁ := h₀.step (a := Event.push ⟨(), (), 1000⟩) trivial rfl
  have hok : ok (book (start 0) 1 ⟨(), (), 1000⟩) (.begin 1000) := by
    intro e he
    rcases PriorityQueue.mem_push.mp he with rfl | he
    · decide
    · exact absurd he List.not_mem_nil
  have h₂ := h₁.step hok rfl
  have h₃ := h₂.step (a := Event.run []) (fun p hp => absurd hp List.not_mem_nil) rfl
  have h₄ := h₃.step (a := Event.finish) trivial rfl
  exact ⟨_, h₄, rfl, (reachable_onTime h₄).1 _ _ List.mem_cons_self⟩

/-- Right before the wrap, a delay of a second is over at once. -/
theorem early_before_wrap :
    ∃ t, (system Unit Unit).Reachable t ∧ ∃ b k, (b, k) ∈ t.executed ∧ t.time k < b.due := by
  have hrun : ∃ t, (system Unit Unit).run (start (2 ^ 32 - 1))
      [.push ⟨(), (), 1000⟩, .begin (2 ^ 32 - 1), .run []] = some t ∧
      (⟨(), 2 ^ 32 + 999, 1⟩, 1) ∈ t.executed ∧ t.time 1 = 2 ^ 32 - 1 :=
    ⟨_, rfl, List.mem_cons_self, rfl⟩
  obtain ⟨t, hrun, hmem, htime⟩ := hrun
  refine ⟨t, .run (.init ⟨_, rfl⟩) hrun, _, _, hmem, ?_⟩
  rw [htime]
  decide

end Timeline
end Scheduler
end EasyGameServer
