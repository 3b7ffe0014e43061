/-
  EasyGameServer.Lib.History

  Histories, the oldest entry first.  `Justified P` says that every entry
  stands in the relation `P` to what came before it; a longer history is
  justified when the old one is and every new entry is, after the old ones.
-/

import Mathlib.Data.List.Basic

namespace EasyGameServer.Lib

variable {α : Type _}

def Justified (P : List α → α → Prop) (l : List α) : Prop :=
  ∀ l₁ a l₂, l = l₁ ++ a :: l₂ → P l₁ a

/-- What is left of a history of one entry at most is its beginning. -/
theorem filter_prefix_of_length_le_one {l : List α} (h : l.length ≤ 1) (p : α → Bool) :
    l.filter p <+: l := by
  match l, h with
  | [], _ => exact List.prefix_rfl
  | [a], _ =>
      rw [List.filter_singleton]
      cases p a with
      | true => exact List.prefix_rfl
      | false => exact List.nil_prefix

namespace Justified

variable {P : List α → α → Prop} {l : List α}

theorem nil : Justified P [] := by
  intro l₁ a l₂ heq
  exact absurd (List.append_eq_nil_iff.mp heq.symm).2 (List.cons_ne_nil a l₂)

/-- An entry of a longer history is an old one, or it is in what was added. -/
theorem append {ns : List α} (h : Justified P l)
    (hns : ∀ n₁ a n₂, ns = n₁ ++ a :: n₂ → P (l ++ n₁) a) : Justified P (l ++ ns) := by
  intro l₁ a l₂ heq
  rcases List.append_eq_append_iff.mp heq with ⟨n₁, rfl, hrest⟩ | ⟨rest, hl, hrest⟩
  · exact hns n₁ a l₂ hrest
  · cases rest with
    | nil =>
        rw [List.append_nil] at hl
        have hhere := hns [] a l₂ hrest.symm
        rwa [List.append_nil, hl] at hhere
    | cons n rest =>
        cases hrest
        exact h l₁ a rest hl

/-- Entries that need no reason. -/
theorem append_of_mem {ns : List α} (h : Justified P l) (hns : ∀ a ∈ ns, ∀ l', P l' a) :
    Justified P (l ++ ns) := by
  refine h.append (fun n₁ a n₂ heq => hns a ?_ _)
  rw [heq]
  exact List.mem_append_right _ List.mem_cons_self

theorem concat {a : α} (h : Justified P l) (ha : P l a) : Justified P (l ++ [a]) := by
  refine h.append (fun n₁ b n₂ heq => ?_)
  cases n₁ with
  | nil =>
      cases heq
      rwa [List.append_nil]
  | cons n n₁ =>
      obtain ⟨-, hnil⟩ := List.cons.inj heq
      exact absurd hnil.symm (by simp)

end Justified
end EasyGameServer.Lib
