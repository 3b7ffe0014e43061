/-
  EasyGameServer.Lib.Intrusive

  Cells of one size in memory, and lists whose links live in the cells they
  link.  A cell is known by its address, a link is a little-endian pointer of
  `w` bytes in its first bytes, and address 0 ends the list.

  `Chain` says which cells the links lead through.  Links are functions of the
  memory, so a chain that comes to its end visits no cell twice, and it only
  depends on the links of its own cells.
-/

import EasyGameServer.Lib.Bytes
import EasyGameServer.Lib.Memory
import Mathlib.Data.List.Pairwise
import Mathlib.Data.List.Perm.Subperm

namespace EasyGameServer.Lib

/-! ## Cells -/

/-- Cells of this size that do not overlap. -/
def Apart (size a b : Nat) : Prop := a + size ≤ b ∨ b + size ≤ a

instance (size : Nat) : Std.Symm (Apart size) where
  symm _ _ h := Or.symm h

theorem Apart.mono {size size' a b : Nat} (h : Apart size a b) (hle : size' ≤ size) :
    Apart size' a b := by
  unfold Apart at *
  omega

theorem Apart.ne {size a b : Nat} (h : Apart size a b) (hpos : 0 < size) : a ≠ b := by
  unfold Apart at h
  omega

/-- No more cells that are apart fit below `n` than `n` has room for. -/
theorem length_le_of_apart {size n : Nat} (hpos : 0 < size) {cells : List Nat}
    (hapart : cells.Pairwise (Apart size)) (hbelow : ∀ a ∈ cells, a + size ≤ n) :
    cells.length ≤ n / size := by
  -- the quotients by the size differ
  have hquotients : (cells.map (· / size)).Nodup := by
    refine List.pairwise_map.mpr (hapart.imp (fun {a b} hab heq => ?_))
    have ha := Nat.div_add_mod a size
    have hb := Nat.div_add_mod b size
    have hra := Nat.mod_lt a hpos
    have hrb := Nat.mod_lt b hpos
    rw [heq] at ha
    unfold Apart at hab
    omega
  have hrange : cells.map (· / size) ⊆ List.range (n / size) := by
    intro q hq
    obtain ⟨a, ha, rfl⟩ := List.mem_map.mp hq
    rw [List.mem_range]
    show a / size + 1 ≤ n / size
    rw [← Nat.add_div_right a hpos]
    exact Nat.div_le_div_right (hbelow a ha)
  have hle := (List.subperm_of_subset hquotients hrange).length_le
  rw [List.length_map, List.length_range] at hle
  exact hle

/-- `n` cells in a row. -/
def row (size : Nat) : Nat → Nat → List Nat
  | 0, _ => []
  | n + 1, base => base :: row size n (base + size)

@[simp] theorem length_row (size n base : Nat) : (row size n base).length = n := by
  induction n generalizing base with
  | zero => rfl
  | succ n ih => rw [row, List.length_cons, ih]

theorem row_bounds {size n base a : Nat} (h : a ∈ row size n base) :
    base ≤ a ∧ a + size ≤ base + n * size := by
  induction n generalizing base with
  | zero => cases h
  | succ n ih =>
      rw [Nat.succ_mul]
      rcases List.mem_cons.mp h with rfl | h
      · omega
      · have hbounds := ih h
        omega

theorem row_apart (size n base : Nat) : (row size n base).Pairwise (Apart size) := by
  induction n generalizing base with
  | zero => exact List.Pairwise.nil
  | succ n ih => exact List.Pairwise.cons (fun a ha => .inl (row_bounds ha).1) (ih _)

variable {w : Nat} {m m' : Nat → UInt8}

/-! ## Pointers in memory -/

def loadPtr (w : Nat) (m : Nat → UInt8) (a : Nat) : Nat := leNat (slice m a w)

def storePtr (w : Nat) (m : Nat → UInt8) (a p : Nat) : Nat → UInt8 := memcpy m a (leBytes w p)

theorem loadPtr_storePtr_self (m : Nat → UInt8) (a : Nat) {p : Nat} (hp : p < 256 ^ w) :
    loadPtr w (storePtr w m a p) a = p := by
  have hslice := slice_memcpy_self m a (leBytes w p)
  rw [length_leBytes] at hslice
  rw [loadPtr, storePtr, hslice, leNat_leBytes, Nat.mod_eq_of_lt hp]

/-- A store changes nothing outside its `w` bytes. -/
theorem storePtr_of_not_mem (m : Nat → UInt8) {a p i : Nat} (h : i < a ∨ a + w ≤ i) :
    storePtr w m a p i = m i := by
  apply memcpy_of_not_mem
  rw [length_leBytes]
  exact h

theorem loadPtr_congr {a : Nat} (h : ∀ i, a ≤ i → i < a + w → m' i = m i) :
    loadPtr w m' a = loadPtr w m a := by
  rw [loadPtr, slice_congr h, loadPtr]

/-! ## Chains -/

/-- From this pointer the links lead through these cells, and then to null. -/
inductive Chain (w : Nat) (m : Nat → UInt8) : Nat → List Nat → Prop
  | nil : Chain w m 0 []
  | cons {a : Nat} {cells : List Nat} (ha : a ≠ 0) (h : Chain w m (loadPtr w m a) cells) :
      Chain w m a (a :: cells)

namespace Chain

variable {a p : Nat} {cells cells' : List Nat}

theorem eq_nil (h : Chain w m 0 cells) : cells = [] := by
  cases h with
  | nil => rfl
  | cons ha _ => exact absurd rfl ha

theorem eq_cons (h : Chain w m p cells) (hp : p ≠ 0) :
    ∃ rest, cells = p :: rest ∧ Chain w m (loadPtr w m p) rest := by
  cases h with
  | nil => exact absurd rfl hp
  | cons _ h => exact ⟨_, rfl, h⟩

theorem unique (h : Chain w m p cells) (h' : Chain w m p cells') : cells = cells' := by
  induction h generalizing cells' with
  | nil => exact h'.eq_nil.symm
  | cons ha _ ih =>
      obtain ⟨rest, rfl, hrest⟩ := h'.eq_cons ha
      rw [ih hrest]

/-- Each cell of a chain is where a chain starts. -/
theorem suffix {before after : List Nat} (h : Chain w m p (before ++ a :: after)) :
    Chain w m a (a :: after) := by
  induction before generalizing p with
  | nil =>
      cases h with
      | cons ha h => exact .cons ha h
  | cons b before ih =>
      cases h with
      | cons _ h => exact ih h

/-- A chain has no cycle. -/
theorem nodup (h : Chain w m p cells) : cells.Nodup := by
  induction h with
  | nil => exact List.nodup_nil
  | @cons a cells ha h ih =>
      refine List.nodup_cons.mpr ⟨fun hmem => ?_, ih⟩
      -- a cell that comes again would start the same chain twice
      obtain ⟨before, after, rfl⟩ := List.append_of_mem hmem
      have hagain := (Chain.cons ha h).unique h.suffix
      have hlen := congrArg List.length (List.cons.inj hagain).2
      rw [List.length_append, List.length_cons] at hlen
      omega

/-- A chain only depends on the links of its cells. -/
theorem congr (h : Chain w m p cells) (hlinks : ∀ a ∈ cells, loadPtr w m' a = loadPtr w m a) :
    Chain w m' p cells := by
  induction h with
  | nil => exact .nil
  | @cons a cells ha _ ih =>
      refine .cons ha ?_
      rw [hlinks a List.mem_cons_self]
      exact ih (fun b hb => hlinks b (List.mem_cons_of_mem _ hb))

/-- Linking a cell in front of a chain whose links lie elsewhere. -/
theorem push (h : Chain w m p cells) (ha : a ≠ 0) (hp : p < 256 ^ w)
    (hapart : ∀ b ∈ cells, Apart w a b) :
    Chain w (storePtr w m a p) a (a :: cells) := by
  refine .cons ha ?_
  rw [loadPtr_storePtr_self m a hp]
  refine h.congr (fun b hb => loadPtr_congr (fun i hlo hhi => storePtr_of_not_mem m ?_))
  have hab := hapart b hb
  unfold Apart at hab
  omega

end Chain
end EasyGameServer.Lib
