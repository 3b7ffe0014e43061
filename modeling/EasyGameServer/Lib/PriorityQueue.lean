/-
  EasyGameServer.Lib.PriorityQueue

  Binary heaps in an array, as `std::push_heap` and `std::pop_heap` keep them,
  and the priority queue adaptor over them.

  `comp a b` says that `a` comes after `b`, as in the C++ adaptor: the front
  is an element that comes after no other.  A queue carries the proof that its
  array is a heap, so an unordered one cannot be built.

  Each sift is described by what holds around the one position whose element
  may be out of place (`HoleOrder`, `UpOrder`); the step lemmas say how a swap
  with the parent or with the best child moves that position.
-/

import Mathlib.Data.List.Perm.Basic
import Mathlib.Data.Multiset.Basic

namespace EasyGameServer.Lib

/-- What the comparator of a priority queue has to be. -/
class StrictWeakOrder {α : Type _} (comp : α → α → Bool) : Prop where
  asymm : ∀ {a b}, comp a b = true → comp b a = false
  cotrans : ∀ {a c} (b), comp a c = true → comp a b = true ∨ comp b c = true

namespace Heap

variable {α : Type _}

def parent (i : Nat) : Nat := (i - 1) / 2

theorem parent_lt {i : Nat} (h : 0 < i) : parent i < i := by
  unfold parent
  omega

theorem parent_eq_iff {i j : Nat} (h : 0 < j) :
    parent j = i ↔ j = 2 * i + 1 ∨ j = 2 * i + 2 := by
  unfold parent
  omega

/-- Does the element at `i` come after the one at `j`? -/
def below (comp : α → α → Bool) (xs : Array α) (i j : Nat) : Bool :=
  match xs[i]?, xs[j]? with
  | some a, some b => comp a b
  | _, _ => false

/-- `push_heap`: the element at `i` rises while its parent comes after it. -/
def siftUp (comp : α → α → Bool) : Nat → Array α → Nat → Array α
  | 0, xs, _ => xs
  | n + 1, xs, i =>
      if 0 < i ∧ below comp xs (parent i) i = true then
        siftUp comp n (xs.swapIfInBounds i (parent i)) (parent i)
      else xs

/-- The child of `i` that comes first, when `i` has one. -/
def bestChild (comp : α → α → Bool) (xs : Array α) (i : Nat) : Option Nat :=
  if 2 * i + 2 < xs.size then
    some (if below comp xs (2 * i + 2) (2 * i + 1) then 2 * i + 1 else 2 * i + 2)
  else if 2 * i + 1 < xs.size then some (2 * i + 1)
  else none

/-- First half of `pop_heap`: the element at `i` sinks to a leaf, whatever it
    is.  Answers the leaf it came to. -/
def siftToLeaf (comp : α → α → Bool) : Nat → Array α → Nat → Array α × Nat
  | 0, xs, i => (xs, i)
  | n + 1, xs, i =>
      match bestChild comp xs i with
      | none => (xs, i)
      | some c => siftToLeaf comp n (xs.swapIfInBounds i c) c

def push (comp : α → α → Bool) (xs : Array α) (a : α) : Array α :=
  siftUp comp xs.size (xs.push a) xs.size

/-- The last element goes to the root's place, sinks to a leaf and rises from
    there. -/
def pop (comp : α → α → Bool) (xs : Array α) : Array α :=
  let ys := (xs.swapIfInBounds 0 (xs.size - 1)).pop
  let zs := siftToLeaf comp ys.size ys 0
  siftUp comp zs.2 zs.1 zs.2

/-! ## Swaps -/

theorem getElem?_swap {xs : Array α} {i j : Nat} (hi : i < xs.size) (hj : j < xs.size)
    (k : Nat) :
    (xs.swapIfInBounds i j)[k]? =
      if k = i then xs[j]? else if k = j then xs[i]? else xs[k]? := by
  rw [Array.swapIfInBounds_def, dif_pos hi, dif_pos hj, Array.getElem?_swap]
  by_cases hki : k = i
  · subst hki
    by_cases hkj : k = j
    · subst hkj
      simp [hi]
    · have hjk : ¬ j = k := fun h => hkj h.symm
      simp [hj, hjk]
  · by_cases hkj : k = j
    · subst hkj
      simp [hi, hki]
    · have hik : ¬ i = k := fun h => hki h.symm
      have hjk : ¬ j = k := fun h => hkj h.symm
      simp [hki, hkj, hik, hjk]

theorem swap_perm (xs : Array α) (i j : Nat) :
    (xs.swapIfInBounds i j).toList.Perm xs.toList := by
  rw [Array.swapIfInBounds_def]
  split
  · split
    · exact (Array.swap_perm _ _).toList
    · exact List.Perm.refl _
  · exact List.Perm.refl _

/-! ## Order around a hole -/

variable {comp : α → α → Bool}

/-- The element at `i` does not come after the one at `j`. -/
def NotBelow (comp : α → α → Bool) (xs : Array α) (i j : Nat) : Prop :=
  below comp xs i j = false

/-- A heap: no parent comes after its child. -/
def Ordered (comp : α → α → Bool) (xs : Array α) : Prop :=
  ∀ j, 0 < j → NotBelow comp xs (parent j) j

/-- Heap order except around `i`, whose neighbours are ordered across it. -/
structure HoleOrder (comp : α → α → Bool) (xs : Array α) (i : Nat) : Prop where
  except : ∀ j, 0 < j → j ≠ i → parent j ≠ i → NotBelow comp xs (parent j) j
  grand : 0 < i → ∀ j, 0 < j → parent j = i → NotBelow comp xs (parent i) j

/-- Heap order except that the element at `i` may have to rise. -/
structure UpOrder (comp : α → α → Bool) (xs : Array α) (i : Nat) : Prop
    extends HoleOrder comp xs i where
  under : ∀ j, 0 < j → parent j = i → NotBelow comp xs i j

theorem notBelow_of_le_size {xs : Array α} {i j : Nat} (h : xs.size ≤ i ∨ xs.size ≤ j) :
    NotBelow comp xs i j := by
  unfold NotBelow below
  rcases h with h | h
  · simp [Array.getElem?_eq_none h]
  · cases hi : xs[i]? <;> simp [Array.getElem?_eq_none h]

theorem notBelow_iff {xs : Array α} {i j : Nat} (hi : i < xs.size) (hj : j < xs.size) :
    NotBelow comp xs i j ↔ comp xs[i] xs[j] = false := by
  unfold NotBelow below
  rw [Array.getElem?_eq_getElem hi, Array.getElem?_eq_getElem hj]

/-- `NotBelow` only depends on the two elements. -/
theorem notBelow_congr {xs ys : Array α} {i j i' j' : Nat} (hi : ys[i']? = xs[i]?)
    (hj : ys[j']? = xs[j]?) (h : NotBelow comp xs i j) : NotBelow comp ys i' j' := by
  unfold NotBelow below at *
  rw [hi, hj]
  exact h

theorem NotBelow.trans [StrictWeakOrder comp] {xs : Array α} {i j k : Nat}
    (hj : j < xs.size) (h₁ : NotBelow comp xs i j) (h₂ : NotBelow comp xs j k) :
    NotBelow comp xs i k := by
  by_cases hi : i < xs.size
  · by_cases hk : k < xs.size
    · rw [notBelow_iff hi hj] at h₁
      rw [notBelow_iff hj hk] at h₂
      rw [notBelow_iff hi hk]
      by_contra hc
      rcases StrictWeakOrder.cotrans xs[j] (eq_true_of_ne_false hc) with h | h
      · exact absurd (h.symm.trans h₁) (by decide)
      · exact absurd (h.symm.trans h₂) (by decide)
    · exact notBelow_of_le_size (Or.inr (by omega))
  · exact notBelow_of_le_size (Or.inl (by omega))

theorem lt_size_of_below {xs : Array α} {i j : Nat} (h : below comp xs i j = true) :
    i < xs.size ∧ j < xs.size := by
  by_contra hc
  have hnot : NotBelow comp xs i j := notBelow_of_le_size (by omega)
  exact absurd (h.symm.trans hnot) (by decide)

/-- An element above its parent is not above what the parent is not above. -/
theorem notBelow_of_below [StrictWeakOrder comp] {xs : Array α} {p i j : Nat}
    (h : below comp xs p i = true) (hj : NotBelow comp xs p j) : NotBelow comp xs i j := by
  obtain ⟨hp, hi⟩ := lt_size_of_below h
  by_cases hjs : j < xs.size
  · have hpi : comp xs[p] xs[i] = true := by
      unfold below at h
      rwa [Array.getElem?_eq_getElem hp, Array.getElem?_eq_getElem hi] at h
    rw [notBelow_iff hp hjs] at hj
    rw [notBelow_iff hi hjs]
    rcases StrictWeakOrder.cotrans xs[j] hpi with h' | h'
    · exact absurd (h'.symm.trans hj) (by decide)
    · exact StrictWeakOrder.asymm h'
  · exact notBelow_of_le_size (Or.inr (by omega))

theorem notBelow_self [StrictWeakOrder comp] (xs : Array α) (i : Nat) :
    NotBelow comp xs i i := by
  by_contra hc
  have hb : below comp xs i i = true := eq_true_of_ne_false hc
  obtain ⟨hi, -⟩ := lt_size_of_below hb
  unfold below at hb
  rw [Array.getElem?_eq_getElem hi] at hb
  exact absurd (hb.symm.trans (StrictWeakOrder.asymm hb)) (by decide)

theorem notBelow_symm [StrictWeakOrder comp] {xs : Array α} {i j : Nat}
    (h : below comp xs i j = true) : NotBelow comp xs j i :=
  notBelow_of_below h (notBelow_self xs i)

/-! ## Rising -/

/-- Swapping with a parent that comes after it moves the position that may
    have to rise to the parent. -/
theorem UpOrder.swap [StrictWeakOrder comp] {xs : Array α} {i : Nat} (h : UpOrder comp xs i)
    (hi : 0 < i) (hb : below comp xs (parent i) i = true) :
    UpOrder comp (xs.swapIfInBounds i (parent i)) (parent i) := by
  obtain ⟨hps, his⟩ := lt_size_of_below hb
  have hlt := parent_lt hi
  have hget := getElem?_swap his hps
  have hat_i : (xs.swapIfInBounds i (parent i))[i]? = xs[parent i]? := by
    rw [hget, if_pos rfl]
  have hat_p : (xs.swapIfInBounds i (parent i))[parent i]? = xs[i]? := by
    rw [hget, if_neg (by omega), if_pos rfl]
  have hat : ∀ k, k ≠ i → k ≠ parent i →
      (xs.swapIfInBounds i (parent i))[k]? = xs[k]? := by
    intro k hk hkp
    rw [hget, if_neg hk, if_neg hkp]
  -- the other child of the parent was in order with it
  have hsib : ∀ j, 0 < j → parent j = parent i → j ≠ i →
      NotBelow comp xs (parent i) j := by
    intro j hj hpj hji
    have := h.except j hj hji (by omega)
    rwa [hpj] at this
  refine ⟨⟨?_, ?_⟩, ?_⟩
  · intro j hj hjp hpj
    have hji : j ≠ i := fun hji => hpj (hji ▸ rfl)
    by_cases hpji : parent j = i
    · exact notBelow_congr (hpji ▸ hat_i) (hat j hji hjp) (h.grand hi j hj hpji)
    · exact notBelow_congr (hat _ hpji hpj) (hat j hji hjp) (h.except j hj hji hpji)
  · intro hp0 j hj hpj
    have hgp := parent_lt hp0
    have hup : NotBelow comp xs (parent (parent i)) (parent i) :=
      h.except (parent i) hp0 (by omega) (by omega)
    by_cases hji : j = i
    · exact notBelow_congr (hat _ (by omega) (by omega)) (hji ▸ hat_i) hup
    · have hjp : j ≠ parent i := by
        have := parent_lt hj
        omega
      exact notBelow_congr (hat _ (by omega) (by omega)) (hat j hji hjp)
        (hup.trans hps (hsib j hj hpj hji))
  · intro j hj hpj
    by_cases hji : j = i
    · exact notBelow_congr hat_p (hji ▸ hat_i) (notBelow_symm hb)
    · have hjp : j ≠ parent i := by
        have := parent_lt hj
        omega
      exact notBelow_congr hat_p (hat j hji hjp) (notBelow_of_below hb (hsib j hj hpj hji))

/-- Nothing is left to do once the parent is in order. -/
theorem UpOrder.ordered {xs : Array α} {i : Nat} (h : UpOrder comp xs i)
    (hi : 0 < i → NotBelow comp xs (parent i) i) : Ordered comp xs := by
  intro j hj
  by_cases hji : j = i
  · subst hji
    exact hi hj
  · by_cases hpj : parent j = i
    · rw [hpj]
      exact h.under j hj hpj
    · exact h.except j hj hji hpj

theorem ordered_siftUp [StrictWeakOrder comp] {n : Nat} {xs : Array α} {i : Nat} (hn : i ≤ n)
    (h : UpOrder comp xs i) : Ordered comp (siftUp comp n xs i) := by
  induction n generalizing xs i with
  | zero => exact h.ordered (fun hi => absurd hi (by omega))
  | succ n ih =>
      rw [siftUp]
      by_cases hc : 0 < i ∧ below comp xs (parent i) i = true
      · rw [if_pos hc]
        have := parent_lt hc.1
        exact ih (by omega) (h.swap hc.1 hc.2)
      · rw [if_neg hc]
        refine h.ordered (fun hi => ?_)
        exact eq_false_of_ne_true (fun hb => hc ⟨hi, hb⟩)

theorem siftUp_perm (n : Nat) (xs : Array α) (i : Nat) :
    (siftUp comp n xs i).toList.Perm xs.toList := by
  induction n generalizing xs i with
  | zero => exact List.Perm.refl _
  | succ n ih =>
      rw [siftUp]
      split
      · exact (ih _ _).trans (swap_perm xs i (parent i))
      · exact List.Perm.refl _

/-! ## Sinking -/

/-- The best child is a child, and does not come after its sibling. -/
theorem bestChild_spec [StrictWeakOrder comp] {xs : Array α} {i c : Nat}
    (h : bestChild comp xs i = some c) :
    0 < c ∧ parent c = i ∧ c < xs.size ∧
      ∀ j, 0 < j → parent j = i → NotBelow comp xs c j := by
  unfold bestChild at h
  by_cases h2 : 2 * i + 2 < xs.size
  · rw [if_pos h2] at h
    cases h
    split
    next hb =>
      refine ⟨by omega, (parent_eq_iff (by omega)).mpr (Or.inl rfl), by omega, ?_⟩
      intro j hj hpj
      rcases (parent_eq_iff hj).mp hpj with rfl | rfl
      · exact notBelow_self xs _
      · exact notBelow_symm hb
    next hb =>
      refine ⟨by omega, (parent_eq_iff (by omega)).mpr (Or.inr rfl), h2, ?_⟩
      intro j hj hpj
      rcases (parent_eq_iff hj).mp hpj with rfl | rfl
      · exact eq_false_of_ne_true hb
      · exact notBelow_self xs _
  · rw [if_neg h2] at h
    by_cases h1 : 2 * i + 1 < xs.size
    · rw [if_pos h1] at h
      cases h
      refine ⟨by omega, (parent_eq_iff (by omega)).mpr (Or.inl rfl), h1, ?_⟩
      intro j hj hpj
      rcases (parent_eq_iff hj).mp hpj with rfl | rfl
      · exact notBelow_self xs _
      · exact notBelow_of_le_size (Or.inr (by omega))
    · rw [if_neg h1] at h
      cases h

theorem bestChild_none {xs : Array α} {i : Nat} (h : bestChild comp xs i = none) :
    xs.size ≤ 2 * i + 1 := by
  unfold bestChild at h
  by_contra hc
  split at h
  · cases h
  · rw [if_pos (by omega)] at h
    cases h

/-- Swapping with the best child moves the hole there. -/
theorem HoleOrder.swap [StrictWeakOrder comp] {xs : Array α} {i c : Nat}
    (h : HoleOrder comp xs i) (hc : bestChild comp xs i = some c) :
    HoleOrder comp (xs.swapIfInBounds i c) c := by
  obtain ⟨hc0, hpc, hcs, hbest⟩ := bestChild_spec hc
  have hic : i < c := by
    have := parent_lt hc0
    omega
  have his : i < xs.size := by omega
  have hget := getElem?_swap his hcs
  have hat_i : (xs.swapIfInBounds i c)[i]? = xs[c]? := by rw [hget, if_pos rfl]
  have hat : ∀ k, k ≠ i → k ≠ c → (xs.swapIfInBounds i c)[k]? = xs[k]? := by
    intro k hk hkc
    rw [hget, if_neg hk, if_neg hkc]
  refine ⟨?_, ?_⟩
  · intro j hj hjc hpj
    by_cases hji : j = i
    · subst hji
      have := parent_lt hj
      exact notBelow_congr (hat _ (by omega) (by omega)) hat_i (h.grand hj c hc0 hpc)
    · by_cases hpji : parent j = i
      · exact notBelow_congr (hpji ▸ hat_i) (hat j hji hjc) (hbest j hj hpji)
      · exact notBelow_congr (hat _ hpji hpj) (hat j hji hjc) (h.except j hj hji hpji)
  · intro _ j hj hpj
    have := parent_lt hj
    have hchild := h.except j hj (by omega) (by omega)
    rw [hpj] at hchild
    exact notBelow_congr (hpc ▸ hat_i) (hat j (by omega) (by omega)) hchild

/-- The element sinks to a leaf, where all that can be wrong is its parent. -/
theorem upOrder_siftToLeaf [StrictWeakOrder comp] {n : Nat} {xs : Array α} {i : Nat}
    (hn : xs.size ≤ n + i) (h : HoleOrder comp xs i) :
    UpOrder comp (siftToLeaf comp n xs i).1 (siftToLeaf comp n xs i).2 := by
  induction n generalizing xs i with
  | zero =>
      refine ⟨h, fun j hj hpj => notBelow_of_le_size (Or.inl ?_)⟩
      simpa [siftToLeaf] using hn
  | succ n ih =>
      rw [siftToLeaf]
      cases hc : bestChild comp xs i with
      | none =>
          have hleaf := bestChild_none hc
          refine ⟨h, fun j hj (hpj : parent j = i) => notBelow_of_le_size (Or.inr ?_)⟩
          rw [parent_eq_iff hj] at hpj
          show xs.size ≤ j
          omega
      | some c =>
          obtain ⟨hc0, hpc, -, -⟩ := bestChild_spec hc
          have := parent_lt hc0
          have hsize : (xs.swapIfInBounds i c).size ≤ n + c := by
            rw [Array.size_swapIfInBounds]
            omega
          exact ih hsize (h.swap hc)

theorem siftToLeaf_perm (n : Nat) (xs : Array α) (i : Nat) :
    (siftToLeaf comp n xs i).1.toList.Perm xs.toList := by
  induction n generalizing xs i with
  | zero => exact List.Perm.refl _
  | succ n ih =>
      rw [siftToLeaf]
      cases bestChild comp xs i with
      | none => exact List.Perm.refl _
      | some c => exact (ih _ _).trans (swap_perm xs i c)

/-! ## `push` and `pop` -/

theorem ordered_push [StrictWeakOrder comp] {xs : Array α} (h : Ordered comp xs) (a : α) :
    Ordered comp (push comp xs a) := by
  have hat : ∀ k, k < xs.size → (xs.push a)[k]? = xs[k]? := by
    intro k hk
    rw [Array.getElem?_push, if_neg (by omega)]
  refine ordered_siftUp (Nat.le_refl _) ⟨⟨?_, ?_⟩, ?_⟩
  · intro j hj hjs _
    have := parent_lt hj
    by_cases hlt : j < xs.size
    · exact notBelow_congr (hat _ (by omega)) (hat j hlt) (h j hj)
    · exact notBelow_of_le_size (Or.inr (by rw [Array.size_push]; omega))
  · intro _ j hj hpj
    have := parent_lt hj
    exact notBelow_of_le_size (Or.inr (by rw [Array.size_push]; omega))
  · intro j hj hpj
    have := parent_lt hj
    exact notBelow_of_le_size (Or.inr (by rw [Array.size_push]; omega))

theorem push_perm (xs : Array α) (a : α) :
    (push comp xs a).toList.Perm (a :: xs.toList) := by
  refine (siftUp_perm _ _ _).trans ?_
  rw [Array.toList_push]
  exact List.perm_append_comm

theorem ordered_pop [StrictWeakOrder comp] {xs : Array α} (h : Ordered comp xs) :
    Ordered comp (pop comp xs) := by
  unfold pop
  refine ordered_siftUp (Nat.le_refl _) (upOrder_siftToLeaf (Nat.le_add_right _ _) ⟨?_, ?_⟩)
  · intro j hj _ hpj
    have hpj' : 0 < parent j := Nat.pos_of_ne_zero hpj
    have hlt := parent_lt hj
    by_cases hjs : j < xs.size - 1
    · -- neither end of the pair is the root or the removed place
      have hat : ∀ k, 0 < k → k < xs.size - 1 →
          (xs.swapIfInBounds 0 (xs.size - 1)).pop[k]? = xs[k]? := by
        intro k hk hks
        rw [Array.getElem?_pop, if_pos (by rw [Array.size_swapIfInBounds]; omega),
          getElem?_swap (by omega) (by omega), if_neg (by omega), if_neg (by omega)]
      exact notBelow_congr (hat _ hpj' (by omega)) (hat j hj hjs) (h j hj)
    · refine notBelow_of_le_size (Or.inr ?_)
      rw [Array.size_pop, Array.size_swapIfInBounds]
      omega
  · intro h0
    exact absurd h0 (Nat.lt_irrefl 0)

theorem pop_perm {xs : Array α} {a : α} (h : xs[0]? = some a) :
    (a :: (pop comp xs).toList).Perm xs.toList := by
  have hsize : 0 < xs.size := by
    by_contra hc
    rw [Array.getElem?_eq_none (by omega)] at h
    cases h
  have hpop : (pop comp xs).toList.Perm
      (xs.swapIfInBounds 0 (xs.size - 1)).pop.toList :=
    (siftUp_perm _ _ _).trans (siftToLeaf_perm _ _ _)
  refine (hpop.cons a).trans (List.Perm.trans ?_ (swap_perm xs 0 (xs.size - 1)))
  -- the front is now last, which is what `pop` takes off
  have hlast : (xs.swapIfInBounds 0 (xs.size - 1)).toList.getLast? = some a := by
    rw [List.getLast?_eq_getElem?, Array.length_toList, Array.getElem?_toList,
      Array.size_swapIfInBounds, getElem?_swap hsize (by omega)]
    split
    next h0 => rw [← h, h0]
    next h0 => rw [if_pos rfl, h]
  rw [Array.toList_pop]
  obtain ⟨ys, hys⟩ := List.getLast?_eq_some_iff.mp hlast
  rw [hys, List.dropLast_concat]
  exact (List.perm_append_singleton a ys).symm

/-- An element the root does not come after never gets to the root's place. -/
theorem siftUp_root {n : Nat} {xs : Array α} {i : Nat} (h : NotBelow comp xs 0 i) :
    (siftUp comp n xs i)[0]? = xs[0]? := by
  induction n generalizing xs i with
  | zero => rfl
  | succ n ih =>
      rw [siftUp]
      by_cases hc : 0 < i ∧ below comp xs (parent i) i = true
      · obtain ⟨hi, hb⟩ := hc
        obtain ⟨hps, his⟩ := lt_size_of_below hb
        have hlt := parent_lt hi
        have hp0 : parent i ≠ 0 := by
          intro h0
          rw [h0] at hb
          exact absurd (hb.symm.trans h) (by decide)
        have hroot : (xs.swapIfInBounds i (parent i))[0]? = xs[0]? := by
          rw [getElem?_swap his hps, if_neg (by omega), if_neg (by omega)]
        have hat_p : (xs.swapIfInBounds i (parent i))[parent i]? = xs[i]? := by
          rw [getElem?_swap his hps, if_neg (by omega), if_pos rfl]
        rw [if_pos ⟨hi, hb⟩, ih (notBelow_congr hroot hat_p h), hroot]
      · rw [if_neg hc]

/-- The root comes after no other element. -/
theorem root_notBelow [StrictWeakOrder comp] {xs : Array α} (h : Ordered comp xs) (j : Nat) :
    NotBelow comp xs 0 j := by
  induction j using Nat.strongRecOn with
  | _ j ih =>
      by_cases hj : 0 < j
      · have hlt := parent_lt hj
        by_cases hs : parent j < xs.size
        · exact (ih _ hlt).trans hs (h j hj)
        · exact notBelow_of_le_size (Or.inr (by omega))
      · have h0 : j = 0 := by omega
        subst h0
        exact notBelow_self xs 0

end Heap

/-! ## The adaptor -/

/-- `std::priority_queue<α, std::vector<α>, comp>`. -/
structure PriorityQueue {α : Type _} (comp : α → α → Bool) where
  c : Array α
  ordered : Heap.Ordered comp c

namespace PriorityQueue

variable {α : Type _} {comp : α → α → Bool}

def empty : PriorityQueue comp where
  c := #[]
  ordered := fun _ _ => Heap.notBelow_of_le_size (Or.inl (Nat.zero_le _))

def top (q : PriorityQueue comp) : Option α := q.c[0]?

def push [StrictWeakOrder comp] (q : PriorityQueue comp) (a : α) : PriorityQueue comp where
  c := Heap.push comp q.c a
  ordered := Heap.ordered_push q.ordered a

def pop [StrictWeakOrder comp] (q : PriorityQueue comp) : PriorityQueue comp where
  c := Heap.pop comp q.c
  ordered := Heap.ordered_pop q.ordered

/-- The queued elements; their order says nothing. -/
def toList (q : PriorityQueue comp) : List α := q.c.toList

instance : Membership α (PriorityQueue comp) where
  mem q a := a ∈ q.toList

theorem mem_def {q : PriorityQueue comp} {a : α} : a ∈ q ↔ a ∈ q.toList := Iff.rfl

theorem top_eq_none_iff {q : PriorityQueue comp} : q.top = none ↔ q.toList = [] := by
  rw [top, toList, ← Array.getElem?_toList, ← List.head?_eq_getElem?, List.head?_eq_none_iff]

variable [StrictWeakOrder comp]

theorem push_perm (q : PriorityQueue comp) (a : α) :
    (q.push a).toList.Perm (a :: q.toList) := Heap.push_perm q.c a

theorem pop_perm {q : PriorityQueue comp} {a : α} (h : q.top = some a) :
    (a :: q.pop.toList).Perm q.toList := Heap.pop_perm h

omit [StrictWeakOrder comp] in
theorem mem_of_top {q : PriorityQueue comp} {a : α} (h : q.top = some a) : a ∈ q := by
  obtain ⟨hs, hget⟩ := Array.getElem?_eq_some_iff.mp h
  rw [mem_def, toList, Array.mem_toList_iff, ← hget]
  exact Array.getElem_mem hs

theorem mem_push {q : PriorityQueue comp} {a b : α} : b ∈ q.push a ↔ b = a ∨ b ∈ q := by
  rw [mem_def, (q.push_perm a).mem_iff, List.mem_cons, mem_def]

/-- The front comes after no other element. -/
theorem top_min {q : PriorityQueue comp} {a b : α} (h : q.top = some a) (hb : b ∈ q) :
    comp a b = false := by
  obtain ⟨hs, hget⟩ := Array.getElem?_eq_some_iff.mp h
  rw [mem_def, toList, Array.mem_toList_iff, Array.mem_iff_getElem] at hb
  obtain ⟨j, hj, rfl⟩ := hb
  have := Heap.root_notBelow q.ordered j
  rwa [Heap.notBelow_iff hs hj, hget] at this

/-- Pushing an element that does not come before the front keeps the front. -/
theorem top_push_of_not_comp {q : PriorityQueue comp} {a b : α} (h : q.top = some a)
    (hb : comp a b = false) : (q.push b).top = some a := by
  obtain ⟨hs, hget⟩ := Array.getElem?_eq_some_iff.mp h
  have hroot : (q.c.push b)[0]? = q.c[0]? := by
    rw [Array.getElem?_push, if_neg (by omega)]
  have hnot : Heap.NotBelow comp (q.c.push b) 0 q.c.size := by
    have hsize : q.c.size < (q.c.push b).size := by
      rw [Array.size_push]
      omega
    rw [Heap.notBelow_iff (by omega) hsize, Array.getElem_push_eq, Array.getElem_push_lt hs,
      hget]
    exact hb
  show (Heap.push comp q.c b)[0]? = some a
  rw [Heap.push, Heap.siftUp_root hnot, hroot]
  exact h

/-- Pushing an element that comes before the front makes it the front. -/
theorem top_push_of_comp {q : PriorityQueue comp} {a b : α} (h : q.top = some a)
    (hb : comp a b = true) : (q.push b).top = some b := by
  cases ht : (q.push b).top with
  | none =>
      have hmem : b ∈ q.push b := mem_push.mpr (Or.inl rfl)
      rw [mem_def, top_eq_none_iff.mp ht] at hmem
      exact absurd hmem List.not_mem_nil
  | some t =>
      rcases mem_push.mp (mem_of_top ht) with rfl | hmem
      · rfl
      · have h₁ := top_min h hmem
        have h₂ := top_min ht (mem_push.mpr (Or.inl rfl))
        rcases StrictWeakOrder.cotrans t hb with h' | h'
        · exact absurd (h'.symm.trans h₁) (by decide)
        · exact absurd (h'.symm.trans h₂) (by decide)

end PriorityQueue
end EasyGameServer.Lib
