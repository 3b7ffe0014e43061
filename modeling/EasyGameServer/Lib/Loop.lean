/-
  EasyGameServer.Lib.Loop

  `while (true)` loops.  A loop body maps the state to `again` (the next
  iteration starts there) or `leave` (the loop returns).  `loop` runs it under
  a bound on the number of iterations, and `Terminates` says that some bound
  is enough.

  The rules: a body that decreases a measure terminates; a body that maps an
  invariant back into itself without leaving never does; and partial
  correctness by an invariant on the states at the loop head.  A loop that
  follows another one returns what the other does.  A loop that consumes
  something makes progress exactly when it does not get stuck.
-/

import Mathlib.Init

namespace EasyGameServer.Lib

/-- One iteration of a `while (true)` loop. -/
inductive Iter (σ ρ : Type _) where
  | again (s : σ)
  | leave (r : ρ)

/-- Run a loop for at most `n` iterations. -/
def loop {σ ρ : Type _} (body : σ → Iter σ ρ) : Nat → σ → Option ρ
  | 0, _ => none
  | n + 1, s =>
      match body s with
      | .leave r => some r
      | .again s' => loop body n s'

variable {σ ρ : Type _} {body : σ → Iter σ ρ}

/-- The loop entered in state `s` returns after finitely many iterations. -/
def Terminates (body : σ → Iter σ ρ) (s : σ) : Prop :=
  ∃ n r, loop body n s = some r

/-- `s'` is the state at the head of some iteration of the loop entered at `s`. -/
inductive Heads (body : σ → Iter σ ρ) : σ → σ → Prop
  | entry (s : σ) : Heads body s s
  | next {s t t' : σ} (h : Heads body s t) (hb : body t = .again t') : Heads body s t'

theorem loop_succ_leave {s : σ} {r : ρ} (h : body s = .leave r) (n : Nat) :
    loop body (n + 1) s = some r := by
  simp only [loop, h]

theorem loop_succ_again {s s' : σ} (h : body s = .again s') (n : Nat) :
    loop body (n + 1) s = loop body n s' := by
  simp only [loop, h]

theorem terminates_of_leave {s : σ} {r : ρ} (h : body s = .leave r) :
    Terminates body s :=
  ⟨1, r, loop_succ_leave h 0⟩

/-- An iteration that goes on does not change whether the loop returns. -/
theorem terminates_again {s s' : σ} (h : body s = .again s') :
    Terminates body s ↔ Terminates body s' := by
  constructor
  · rintro ⟨n, r, hn⟩
    cases n with
    | zero => cases hn
    | succ n => exact ⟨n, r, (loop_succ_again h n).symm.trans hn⟩
  · rintro ⟨n, r, hn⟩
    exact ⟨n + 1, r, (loop_succ_again h n).trans hn⟩

/-- A loop whose body decreases a measure returns. -/
theorem terminates_of_measure (I : σ → Prop) (μ : σ → Nat)
    (hb : ∀ s s', I s → body s = .again s' → I s' ∧ μ s' < μ s) :
    ∀ s, I s → Terminates body s := by
  intro s
  induction hm : μ s using Nat.strongRecOn generalizing s with
  | _ m ih =>
      intro hI
      cases hbody : body s with
      | leave r => exact terminates_of_leave hbody
      | again s' =>
          obtain ⟨hI', hlt⟩ := hb s s' hI hbody
          exact (terminates_again hbody).mpr (ih (μ s') (hm ▸ hlt) s' rfl hI')

/-- A loop that keeps an invariant under which it never leaves runs forever. -/
theorem not_terminates_of_invariant (I : σ → Prop)
    (hb : ∀ s, I s → ∃ s', body s = .again s' ∧ I s') :
    ∀ s, I s → ¬ Terminates body s := by
  rintro s hI ⟨n, r, hn⟩
  induction n generalizing s with
  | zero => cases hn
  | succ n ih =>
      obtain ⟨s', hs', hI'⟩ := hb s hI
      exact ih s' hI' ((loop_succ_again hs' n).symm.trans hn)

/-- Partial correctness: what the body establishes on leaving, under an
    invariant it keeps while going on, holds of the loop's result. -/
theorem loop_result (I : σ → Prop) (Q : ρ → Prop)
    (hagain : ∀ s s', I s → body s = .again s' → I s')
    (hleave : ∀ s r, I s → body s = .leave r → Q r)
    {n : Nat} {s : σ} {r : ρ} (hI : I s) (h : loop body n s = some r) : Q r := by
  induction n generalizing s with
  | zero => cases h
  | succ n ih =>
      cases hb : body s with
      | leave r' =>
          rw [loop_succ_leave hb] at h
          cases h
          exact hleave s r hI hb
      | again s' =>
          rw [loop_succ_again hb] at h
          exact ih (hagain s s' hI hb) h

/-- A loop that follows another one, iteration for iteration, returns when it
    does, and the same. -/
theorem loop_map {σ' ρ' : Type _} {body' : σ' → Iter σ' ρ'} {f : σ → σ'} {g : ρ → ρ'}
    (hagain : ∀ s s', body s = .again s' → body' (f s) = .again (f s'))
    (hleave : ∀ s r, body s = .leave r → body' (f s) = .leave (g r))
    {n : Nat} {s : σ} {r : ρ} (h : loop body n s = some r) :
    loop body' n (f s) = some (g r) := by
  induction n generalizing s with
  | zero => cases h
  | succ n ih =>
      cases hb : body s with
      | leave r' =>
          rw [loop_succ_leave hb] at h
          cases h
          exact loop_succ_leave (hleave s r hb) n
      | again s' =>
          rw [loop_succ_again hb] at h
          rw [loop_succ_again (hagain s s' hb)]
          exact ih h

/-! ## Progress -/

/-- The loop returns, and every iteration that does not leave it brings the
    measure down. -/
def Advances (body : σ → Iter σ ρ) (μ : σ → Nat) (s : σ) : Prop :=
  Terminates body s ∧ ∀ h h', Heads body s h → body h = .again h' → μ h' < μ h

theorem Heads.invariant {I : σ → Prop} (hagain : ∀ s s', I s → body s = .again s' → I s')
    {s h : σ} (hI : I s) (hh : Heads body s h) : I h := by
  induction hh with
  | entry => exact hI
  | next _ hb ih => exact hagain _ _ ih hb

/-- A loop advances unless it gets stuck: `Stuck` is kept by every iteration,
    one on a state that is not stuck leaves or brings the measure down, and one
    on a state that is stuck does not leave. -/
theorem advances_iff {I Stuck : σ → Prop} {μ : σ → Nat}
    (hstep : ∀ s, I s → (¬ Stuck s ∧ ∃ r, body s = .leave r) ∨
      ∃ s', body s = .again s' ∧ I s' ∧ (Stuck s ↔ Stuck s') ∧ (Stuck s ∨ μ s' < μ s))
    {s : σ} (hI : I s) : Advances body μ s ↔ ¬ Stuck s := by
  have hagain : ∀ s s', I s ∧ ¬ Stuck s → body s = .again s' →
      (I s' ∧ ¬ Stuck s') ∧ μ s' < μ s := by
    rintro s s' ⟨hI, hfree⟩ hb
    rcases hstep s hI with ⟨-, r, hleave⟩ | ⟨t, ht, hI', hiff, hmove⟩
    · cases hb.symm.trans hleave
    · cases hb.symm.trans ht
      exact ⟨⟨hI', fun hs => hfree (hiff.mpr hs)⟩, hmove.resolve_left hfree⟩
  constructor
  · rintro ⟨hends, -⟩ hs
    refine not_terminates_of_invariant (fun s => I s ∧ Stuck s) ?_ s ⟨hI, hs⟩ hends
    rintro s ⟨hI, hs⟩
    rcases hstep s hI with ⟨hfree, -⟩ | ⟨t, ht, hI', hiff, -⟩
    · exact absurd hs hfree
    · exact ⟨t, ht, hI', hiff.mp hs⟩
  · intro hfree
    refine ⟨terminates_of_measure (fun s => I s ∧ ¬ Stuck s) μ hagain s ⟨hI, hfree⟩, ?_⟩
    intro h h' hh hb
    exact (hagain h h' (hh.invariant (fun s s' hI hb => (hagain s s' hI hb).1) ⟨hI, hfree⟩) hb).2

end EasyGameServer.Lib
