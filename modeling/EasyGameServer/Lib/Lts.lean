/-
  EasyGameServer.Lib.Lts

  Labelled transition systems with an executable step function.  A label says
  everything the environment chooses, so a step is a partial function of the
  state and the label.

  Runs are guarded: `ReachableBy ok` is reachability through steps that all
  meet `ok`, a condition on the state before the step and its label.  Plain
  reachability is the case of the trivial guard.  `IsInvariant` packages the
  one induction every safety proof uses.
-/

import Mathlib.Init

namespace EasyGameServer.Lib

/-- A transition system: initial states and a partial step function. -/
structure System (σ α : Type _) where
  init : σ → Prop
  step : σ → α → Option σ

namespace System

variable {σ α : Type _}

/-- The trivial guard. -/
def always : σ → α → Prop := fun _ _ => True

/-- States reached by runs all of whose steps meet the guard `ok`. -/
inductive ReachableBy (S : System σ α) (ok : σ → α → Prop) : σ → Prop
  | init {s : σ} (h : S.init s) : ReachableBy S ok s
  | step {s s' : σ} {a : α} (hr : ReachableBy S ok s) (hok : ok s a)
      (hs : S.step s a = some s') : ReachableBy S ok s'

/-- States reached by any run. -/
abbrev Reachable (S : System σ α) : σ → Prop := S.ReachableBy always

/-- Run a list of labels. -/
def run (S : System σ α) : σ → List α → Option σ
  | s, [] => some s
  | s, a :: as => (S.step s a).bind (fun s' => S.run s' as)

/-- What a list of labels that meet the guard everywhere reaches is reached by
    guarded runs. -/
theorem ReachableBy.run {S : System σ α} {ok : σ → α → Prop} {s s' : σ} {as : List α}
    (hr : S.ReachableBy ok s) (hok : ∀ s, ∀ a ∈ as, ok s a) (h : S.run s as = some s') :
    S.ReachableBy ok s' := by
  induction as generalizing s with
  | nil =>
      cases h
      exact hr
  | cons a as ih =>
      obtain ⟨t, hst, hrun⟩ := Option.bind_eq_some_iff.mp h
      exact ih (.step hr (hok s a List.mem_cons_self) hst)
        (fun s b hb => hok s b (List.mem_cons_of_mem _ hb)) hrun

theorem Reachable.run {S : System σ α} {s s' : σ} {as : List α}
    (hr : S.Reachable s) (h : S.run s as = some s') : S.Reachable s' :=
  ReachableBy.run hr (fun _ _ _ => trivial) h

/-- Run a list of labels as long as a check succeeds before each. -/
def runIf (S : System σ α) (check : σ → α → Bool) : σ → List α → Option σ
  | s, [] => some s
  | s, a :: as => if check s a then (S.step s a).bind (fun s' => S.runIf check s' as) else none

theorem runIf_cons_eq_some {S : System σ α} {check : σ → α → Bool} {s t : σ} {a : α}
    {as : List α} (h : S.runIf check s (a :: as) = some t) :
    check s a = true ∧ ∃ s', S.step s a = some s' ∧ S.runIf check s' as = some t := by
  rw [System.runIf] at h
  split at h
  next hc => exact ⟨hc, Option.bind_eq_some_iff.mp h⟩
  next => cases h

/-- A check that implies the guard, for the labels of the list, makes the run a
    guarded one. -/
theorem ReachableBy.runIf_of_mem {S : System σ α} {ok : σ → α → Prop} {check : σ → α → Bool}
    {s s' : σ} {as : List α} (hr : S.ReachableBy ok s)
    (hcheck : ∀ a ∈ as, ∀ s, check s a = true → ok s a) (h : S.runIf check s as = some s') :
    S.ReachableBy ok s' := by
  induction as generalizing s with
  | nil =>
      cases h
      exact hr
  | cons a as ih =>
      obtain ⟨hc, t, hst, hrun⟩ := runIf_cons_eq_some h
      exact ih (.step hr (hcheck a List.mem_cons_self s hc) hst)
        (fun b hb => hcheck b (List.mem_cons_of_mem _ hb)) hrun

theorem ReachableBy.runIf {S : System σ α} {ok : σ → α → Prop} {check : σ → α → Bool}
    {s s' : σ} {as : List α} (hr : S.ReachableBy ok s)
    (hcheck : ∀ s a, check s a = true → ok s a) (h : S.runIf check s as = some s') :
    S.ReachableBy ok s' :=
  hr.runIf_of_mem (fun a _ s => hcheck s a) h

/-- A weaker guard reaches more. -/
theorem ReachableBy.mono {S : System σ α} {ok ok' : σ → α → Prop} {s : σ}
    (h : S.ReachableBy ok s) (himp : ∀ s a, ok s a → ok' s a) : S.ReachableBy ok' s := by
  induction h with
  | init h => exact .init h
  | step _ hok hs ih => exact .step ih (himp _ _ hok) hs

/-- The runs of `S` that start in a state with `P`. -/
def startingWith (S : System σ α) (P : σ → Prop) : System σ α where
  init s := S.init s ∧ P s
  step := S.step

theorem ReachableBy.of_startingWith {S : System σ α} {P : σ → Prop} {ok : σ → α → Prop} {s : σ}
    (h : (S.startingWith P).ReachableBy ok s) : S.ReachableBy ok s := by
  induction h with
  | init h => exact .init h.1
  | step _ hok hs ih => exact .step ih hok hs

/-- Guarded runs are runs. -/
theorem ReachableBy.reachable {S : System σ α} {ok : σ → α → Prop} {s : σ}
    (h : S.ReachableBy ok s) : S.Reachable s := h.mono (fun _ _ _ => trivial)

/-- A step that has been taken. -/
structure Transition (σ α : Type _) where
  before : σ
  label : α
  after : σ

/-- The steps of a run from one state to another, oldest first. -/
inductive Path (S : System σ α) (s : σ) : List (Transition σ α) → σ → Prop
  | nil : Path S s [] s
  | snoc {t t' : σ} {ts : List (Transition σ α)} {a : α} (h : Path S s ts t)
      (hs : S.step t a = some t') : Path S s (ts ++ [⟨t, a, t'⟩]) t'

/-- A step before a run. -/
theorem Path.cons {S : System σ α} {s t t' : σ} {ts : List (Transition σ α)} {a : α}
    (hs : S.step s a = some t) (h : S.Path t ts t') : S.Path s (⟨s, a, t⟩ :: ts) t' := by
  induction h with
  | nil => exact Path.nil.snoc hs
  | snoc _ hstep ih => exact .snoc ih hstep

/-- A list of labels that runs through is a run. -/
theorem exists_path_of_run {S : System σ α} {s t : σ} {as : List α} (h : S.run s as = some t) :
    ∃ ts, S.Path s ts t := by
  induction as generalizing s with
  | nil =>
      cases h
      exact ⟨[], .nil⟩
  | cons a as ih =>
      obtain ⟨u, hsu, hrun⟩ := Option.bind_eq_some_iff.mp h
      obtain ⟨ts, hts⟩ := ih hrun
      exact ⟨_, hts.cons hsu⟩

/-- A checked list of labels that runs through is a run whose steps all passed
    the check. -/
theorem exists_path_of_runIf {S : System σ α} {check : σ → α → Bool} {s t : σ} {as : List α}
    (h : S.runIf check s as = some t) :
    ∃ ts, S.Path s ts t ∧ ∀ tr ∈ ts, check tr.before tr.label = true := by
  induction as generalizing s with
  | nil =>
      cases h
      exact ⟨[], .nil, fun tr htr => absurd htr List.not_mem_nil⟩
  | cons a as ih =>
      obtain ⟨hc, u, hsu, hrun⟩ := runIf_cons_eq_some h
      obtain ⟨ts, hts, hall⟩ := ih hrun
      refine ⟨_, hts.cons hsu, fun tr htr => ?_⟩
      rcases List.mem_cons.mp htr with rfl | htr
      · exact hc
      · exact hall tr htr

theorem Path.reachable {S : System σ α} {s t : σ} {ts : List (Transition σ α)}
    (h : S.Path s ts t) (hs : S.Reachable s) : S.Reachable t := by
  induction h with
  | nil => exact hs
  | snoc _ hstep ih => exact .step ih trivial hstep

/-- Every step of a run is a step, from a state that is reached. -/
theorem Path.mem {S : System σ α} {s t : σ} {ts : List (Transition σ α)} (h : S.Path s ts t)
    (hs : S.Reachable s) {tr : Transition σ α} (htr : tr ∈ ts) :
    S.Reachable tr.before ∧ S.step tr.before tr.label = some tr.after := by
  induction h with
  | nil => cases htr
  | snoc h hstep ih =>
      rcases List.mem_append.mp htr with htr | htr
      · exact ih htr
      · rw [List.mem_singleton.mp htr]
        exact ⟨h.reachable hs, hstep⟩

/-- One run after another. -/
theorem Path.append {S : System σ α} {s t u : σ} {ts us : List (Transition σ α)}
    (h : S.Path s ts t) (h' : S.Path t us u) : S.Path s (ts ++ us) u := by
  induction h' with
  | nil =>
      rw [List.append_nil]
      exact h
  | snoc _ hstep ih =>
      rw [← List.append_assoc]
      exact .snoc ih hstep

/-- A step of a run is a step with a run before it and a run after it. -/
theorem Path.split {S : System σ α} {s t : σ} {ts : List (Transition σ α)} (h : S.Path s ts t)
    {tr : Transition σ α} (htr : tr ∈ ts) :
    ∃ before after, ts = before ++ tr :: after ∧ S.Path s before tr.before ∧
      S.step tr.before tr.label = some tr.after ∧ S.Path tr.after after t := by
  induction h with
  | nil => cases htr
  | snoc h hstep ih =>
      rcases List.mem_append.mp htr with htr | htr
      · obtain ⟨before, after, rfl, hbefore, hs, hafter⟩ := ih htr
        exact ⟨before, after ++ [_], List.append_assoc .., hbefore, hs, hafter.snoc hstep⟩
      · cases List.mem_singleton.mp htr
        exact ⟨_, [], rfl, h, hstep, .nil⟩

/-- `I` holds initially and every guarded step from a reachable state keeps it. -/
structure IsInvariant (S : System σ α) (ok : σ → α → Prop) (I : σ → Prop) : Prop where
  init : ∀ s, S.init s → I s
  step : ∀ s a s', S.ReachableBy ok s → I s → ok s a → S.step s a = some s' → I s'

/-- The run rule: an invariant holds in every state a guarded run reaches. -/
theorem IsInvariant.holds {S : System σ α} {ok : σ → α → Prop} {I : σ → Prop}
    (h : S.IsInvariant ok I) {s : σ} (hr : S.ReachableBy ok s) : I s := by
  induction hr with
  | init hi => exact h.init _ hi
  | step hr hok hs ih => exact h.step _ _ _ hr ih hok hs

/-- Every guarded step of `C` is matched by guarded steps of `A`, along `R`. -/
structure Simulation {τ β : Type _} (C : System σ α) (ok : σ → α → Prop) (A : System τ β)
    (ok' : τ → β → Prop) (R : σ → τ → Prop) : Prop where
  init : ∀ s, C.init s → ∃ t, A.init t ∧ R s t
  step : ∀ s a s' t, A.ReachableBy ok' t → R s t → ok s a → C.step s a = some s' →
    ∃ t', A.ReachableBy ok' t' ∧ R s' t'

/-- What `C` reaches stands for something `A` reaches. -/
theorem Simulation.holds {τ β : Type _} {C : System σ α} {ok : σ → α → Prop} {A : System τ β}
    {ok' : τ → β → Prop} {R : σ → τ → Prop} (h : Simulation C ok A ok' R) {s : σ}
    (hr : C.ReachableBy ok s) : ∃ t, A.ReachableBy ok' t ∧ R s t := by
  induction hr with
  | init hi =>
      obtain ⟨t, ht, hR⟩ := h.init _ hi
      exact ⟨t, .init ht, hR⟩
  | step _ hok hs ih =>
      obtain ⟨t, ht, hR⟩ := ih
      exact h.step _ _ _ t ht hR hok hs

end System
end EasyGameServer.Lib
