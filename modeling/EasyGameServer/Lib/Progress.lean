/-
  EasyGameServer.Lib.Progress

  Waiting.  Somebody waits for a state with `done`; some labels help.  Until
  then no step adds to the work that is left, every helping step takes from it,
  and a helping step is always possible.  Then, however the steps of everybody
  interleave, the wait is over after at most as many helping steps as there was
  work, and it never gets stuck before.
-/

import EasyGameServer.Lib.Lts
import Mathlib.Data.List.Basic

namespace EasyGameServer.Lib.System

variable {σ α : Type _}

/-- What makes a wait end. -/
structure Drains (S : System σ α) (helps : α → Bool) (I done : σ → Prop) (work : σ → Nat) :
    Prop where
  keeps : ∀ s a s', I s → ¬ done s → S.step s a = some s' → I s'
  works : ∀ s a s', I s → ¬ done s → S.step s a = some s' →
    work s' + (if helps a then 1 else 0) ≤ work s
  goes : ∀ s, I s → ¬ done s → ∃ a s', helps a = true ∧ S.step s a = some s'

namespace Drains

variable {S : System σ α} {helps : α → Bool} {I done : σ → Prop} {work : σ → Nat}

/-- Along every run the wait has been over at some point, or there have been no
    more helping steps than work, and another one is possible. -/
theorem run (h : S.Drains helps I done work) {as : List α} {s s' : σ} (hs : I s)
    (hrun : S.run s as = some s') :
    (∃ bs t, bs <+: as ∧ S.run s bs = some t ∧ done t) ∨
      (as.countP helps + work s' ≤ work s ∧
        ∃ a t, helps a = true ∧ S.step s' a = some t) := by
  induction as generalizing s with
  | nil =>
      have heq : s = s' := Option.some.inj hrun
      subst heq
      by_cases hdone : done s
      · exact Or.inl ⟨[], s, List.nil_prefix, rfl, hdone⟩
      · exact Or.inr ⟨Nat.le_of_eq (Nat.zero_add _), h.goes s hs hdone⟩
  | cons a as ih =>
      obtain ⟨t, hstep, hrest⟩ := Option.bind_eq_some_iff.mp hrun
      by_cases hdone : done s
      · exact Or.inl ⟨[], s, List.nil_prefix, rfl, hdone⟩
      · have hwork := h.works s a t hs hdone hstep
        rcases ih (h.keeps s a t hs hdone hstep) hrest with
          ⟨bs, u, hpre, hbs, hu⟩ | ⟨hle, hgoes⟩
        · refine Or.inl ⟨a :: bs, u, List.cons_prefix_cons.mpr ⟨rfl, hpre⟩, ?_, hu⟩
          exact Option.bind_eq_some_iff.mpr ⟨t, hstep, hbs⟩
        · refine Or.inr ⟨?_, hgoes⟩
          rw [List.countP_cons]
          omega

/-- Some run of helping steps ends the wait. -/
theorem exists_run (h : S.Drains helps I done work) {s : σ} (hs : I s) :
    ∃ as s', (∀ a ∈ as, helps a = true) ∧ S.run s as = some s' ∧ done s' := by
  induction hn : work s using Nat.strongRecOn generalizing s with
  | ind n ih =>
      by_cases hdone : done s
      · exact ⟨[], s, fun _ ha => absurd ha List.not_mem_nil, rfl, hdone⟩
      · obtain ⟨a, t, ha, hstep⟩ := h.goes s hs hdone
        have hwork := h.works s a t hs hdone hstep
        rw [if_pos ha] at hwork
        obtain ⟨as, s', hall, hrun, hdone'⟩ :=
          ih (work t) (by omega) (h.keeps s a t hs hdone hstep) rfl
        refine ⟨a :: as, s', ?_, Option.bind_eq_some_iff.mpr ⟨t, hstep, hrun⟩, hdone'⟩
        intro b hb
        rcases List.mem_cons.mp hb with rfl | hb
        · exact ha
        · exact hall b hb

end Drains
end EasyGameServer.Lib.System
