/-
  EasyGameServer.Lib.KeyedTable

  Tables with at most one entry for each key, and operations that each touch
  one key.  What a sequence of operations leaves at a key depends only on what
  was there and on the operations on that key, in their order.
-/

import Mathlib.Logic.Function.Basic

namespace EasyGameServer.Lib

variable {κ ν : Type _} [DecidableEq κ]

/-- An operation on the entry at one key. -/
structure KeyedOp (κ ν : Type _) where
  key : κ
  effect : Option ν → Option ν

namespace KeyedOp

def apply (op : KeyedOp κ ν) (t : κ → Option ν) : κ → Option ν :=
  Function.update t op.key (op.effect (t op.key))

@[simp] theorem apply_self (op : KeyedOp κ ν) (t : κ → Option ν) :
    op.apply t op.key = op.effect (t op.key) :=
  Function.update_self ..

theorem apply_of_ne {op : KeyedOp κ ν} {k : κ} (h : op.key ≠ k) (t : κ → Option ν) :
    op.apply t k = t k :=
  Function.update_of_ne (Ne.symm h) ..

/-- Apply operations, the first one first. -/
def applyAll (t : κ → Option ν) (ops : List (KeyedOp κ ν)) : κ → Option ν :=
  ops.foldl (fun t op => op.apply t) t

theorem applyAll_concat (t : κ → Option ν) (ops : List (KeyedOp κ ν)) (op : KeyedOp κ ν) :
    applyAll t (ops ++ [op]) = op.apply (applyAll t ops) := by
  simp only [applyAll, List.foldl_append, List.foldl_cons, List.foldl_nil]

theorem applyAll_append (t : κ → Option ν) (ops ops' : List (KeyedOp κ ν)) :
    applyAll t (ops ++ ops') = applyAll (applyAll t ops) ops' :=
  List.foldl_append

/-- At a key only the operations on it count. -/
theorem applyAll_at (t : κ → Option ν) (ops : List (KeyedOp κ ν)) (k : κ) :
    applyAll t ops k
      = (ops.filter (fun op => op.key = k)).foldl (fun v op => op.effect v) (t k) := by
  induction ops generalizing t with
  | nil => rfl
  | cons op rest ih =>
      have hrest : applyAll t (op :: rest) k = applyAll (op.apply t) rest k := rfl
      rw [hrest, ih]
      by_cases hk : op.key = k
      · subst hk
        simp
      · simp [hk, apply_of_ne hk]

/-- Operations on other keys make no difference. -/
theorem applyAll_filter (t : κ → Option ν) (ops : List (KeyedOp κ ν)) (k : κ) :
    applyAll t (ops.filter (fun op => op.key = k)) k = applyAll t ops k := by
  rw [applyAll_at, applyAll_at, List.filter_filter]
  simp only [Bool.and_self]

end KeyedOp
end EasyGameServer.Lib
