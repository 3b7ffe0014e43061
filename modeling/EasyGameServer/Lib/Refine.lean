/-
  EasyGameServer.Lib.Refine

  Sequential objects and their refinement.  An `Object` answers operations one
  at a time and may refuse one that its callers are not allowed to make.  A
  `Spec` says which answers and which next abstract states are allowed.  An
  object refines a spec along an abstraction function when each operation,
  under an invariant, is an allowed one; `Refines.run` lifts that to every
  sequence of operations.

  A bisimulation relates states that nobody can tell apart: related states
  answer every sequence of operations alike.
-/

import Mathlib.Init

namespace EasyGameServer.Lib

/-- A sequential object: states `σ`, operations `ι`, answers `ο`. -/
structure Object (σ ι ο : Type _) where
  step : σ → ι → Option (ο × σ)

/-- An abstract object: which answers and next states each operation allows. -/
structure Spec (α ι ο : Type _) where
  allow : α → ι → ο → α → Prop

variable {σ ι ο α : Type _}

/-- Run a sequence of operations, collecting the answers. -/
def Object.run (O : Object σ ι ο) : σ → List ι → Option (List ο × σ)
  | s, [] => some ([], s)
  | s, i :: is =>
      match O.step s i with
      | none => none
      | some (o, s') => (O.run s' is).map (fun p => (o :: p.1, p.2))

/-- What each of some operations keeps holds after a run of them. -/
theorem Object.run_invariant {O : Object σ ι ο} {I : σ → Prop} {s s' : σ} {is : List ι}
    {os : List ο}
    (hstep : ∀ s i o s', i ∈ is → I s → O.step s i = some (o, s') → I s') (hI : I s)
    (hrun : O.run s is = some (os, s')) : I s' := by
  induction is generalizing s os with
  | nil =>
      cases hrun
      exact hI
  | cons i is ih =>
      simp only [Object.run] at hrun
      cases hs : O.step s i with
      | none => rw [hs] at hrun; cases hrun
      | some p =>
          obtain ⟨o, t⟩ := p
          rw [hs] at hrun
          obtain ⟨⟨os', u⟩, hrest, heq⟩ := Option.map_eq_some_iff.mp hrun
          cases heq
          have hIt := hstep s i o t List.mem_cons_self hI hs
          exact ih (fun s j o s' hj => hstep s j o s' (List.mem_cons_of_mem i hj)) hIt hrest

/-- One more operation behind a run. -/
theorem Object.run_snoc {O : Object σ ι ο} {s t u : σ} {is : List ι} {os : List ο} {i : ι}
    {o : ο} (hrun : O.run s is = some (os, t)) (hstep : O.step t i = some (o, u)) :
    O.run s (is ++ [i]) = some (os ++ [o], u) := by
  induction is generalizing s os with
  | nil =>
      cases hrun
      simp only [List.nil_append, Object.run, hstep, Option.map_some]
  | cons j is ih =>
      simp only [Object.run] at hrun
      cases hs : O.step s j with
      | none => rw [hs] at hrun; cases hrun
      | some p =>
          rw [hs] at hrun
          obtain ⟨⟨os', v⟩, hrest, heq⟩ := Option.map_eq_some_iff.mp hrun
          cases heq
          simp only [List.cons_append, Object.run, hs, ih hrest, Option.map_some]

/-- Related states answer every operation alike, and stay related. -/
def Object.Bisimulation (O : Object σ ι ο) (R : σ → σ → Prop) : Prop :=
  ∀ s t i, R s t → Option.Rel (fun p q => p.1 = q.1 ∧ R p.2 q.2) (O.step s i) (O.step t i)

/-- Nobody can tell related states apart. -/
theorem Object.Bisimulation.run_eq {O : Object σ ι ο} {R : σ → σ → Prop}
    (h : O.Bisimulation R) {s t : σ} (hR : R s t) (is : List ι) :
    (O.run s is).map Prod.fst = (O.run t is).map Prod.fst := by
  induction is generalizing s t with
  | nil => rfl
  | cons i is ih =>
      have hstep := h s t i hR
      simp only [Object.run]
      generalize O.step s i = x at hstep
      generalize O.step t i = y at hstep
      cases hstep with
      | none => rfl
      | @some p q hpq =>
          obtain ⟨hanswer, hR'⟩ := hpq
          have hrest := ih hR'
          simp only [Option.map_map, hanswer]
          rw [show (Prod.fst ∘ fun r : List ο × σ => (q.1 :: r.1, r.2))
              = (q.1 :: ·) ∘ Prod.fst from rfl,
            ← Option.map_map, ← Option.map_map, hrest]

/-- The answers `os` to the operations `is` are allowed from `a`, ending in
    the last argument. -/
inductive Spec.Allowed (S : Spec α ι ο) : α → List ι → List ο → α → Prop
  | nil (a : α) : Allowed S a [] [] a
  | cons {a a' a'' : α} {i : ι} {o : ο} {is : List ι} {os : List ο}
      (h : S.allow a i o a') (hs : Allowed S a' is os a'') :
      Allowed S a (i :: is) (o :: os) a''

/-- Every operation of `O` under the invariant `I` is allowed by `S` along
    `abs`, and keeps `I`. -/
def Refines (O : Object σ ι ο) (S : Spec α ι ο) (abs : σ → α) (I : σ → Prop) : Prop :=
  ∀ s i o s', I s → O.step s i = some (o, s') → I s' ∧ S.allow (abs s) i o (abs s')

/-- Refinement of single operations is refinement of runs. -/
theorem Refines.run {O : Object σ ι ο} {S : Spec α ι ο} {abs : σ → α} {I : σ → Prop}
    (h : Refines O S abs I) {s s' : σ} {is : List ι} {os : List ο} (hI : I s)
    (hrun : O.run s is = some (os, s')) : I s' ∧ S.Allowed (abs s) is os (abs s') := by
  induction is generalizing s os with
  | nil =>
      cases hrun
      exact ⟨hI, .nil _⟩
  | cons i is ih =>
      simp only [Object.run] at hrun
      cases hstep : O.step s i with
      | none => rw [hstep] at hrun; cases hrun
      | some p =>
          obtain ⟨o, t⟩ := p
          rw [hstep] at hrun
          obtain ⟨⟨os', u⟩, hrest, heq⟩ := Option.map_eq_some_iff.mp hrun
          cases heq
          obtain ⟨hIt, hallow⟩ := h s i o t hI hstep
          obtain ⟨hIu, hall⟩ := ih hIt hrest
          exact ⟨hIu, .cons hallow hall⟩

end EasyGameServer.Lib
