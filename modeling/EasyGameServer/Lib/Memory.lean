/-
  EasyGameServer.Lib.Memory

  Byte memory as a total function from offsets to cells, with the three
  primitives of the C library that ring buffers are written with: reading a
  run of cells (`slice`), `memcpy` from a private source, and `memmove`
  between two possibly overlapping runs.

  The lemmas are the frame algebra: how `slice` splits, what a copy leaves in
  the run it wrote, and that it leaves every disjoint run alone.  Nothing here
  bounds the memory; bounds belong to the data structure that owns the cells.
-/

import Mathlib.Data.List.Basic

namespace EasyGameServer.Lib

variable {α : Type _}

/-- The cells `[off, off + len)` of memory `m`, in order. -/
def slice (m : Nat → α) (off len : Nat) : List α :=
  (List.range' off len).map m

/-- `memcpy(m + dst, data, data.length)`. -/
def memcpy (m : Nat → α) (dst : Nat) (data : List α) : Nat → α :=
  fun i => if h : dst ≤ i ∧ i - dst < data.length then data[i - dst] else m i

/-- `memmove(m + dst, m + src, len)`: the source run is read before anything
    is written, so the two runs may overlap. -/
def memmove (m : Nat → α) (dst src len : Nat) : Nat → α :=
  memcpy m dst (slice m src len)

/-! ## Slices -/

@[simp] theorem length_slice (m : Nat → α) (off len : Nat) :
    (slice m off len).length = len := by
  simp [slice]

@[simp] theorem slice_zero (m : Nat → α) (off : Nat) : slice m off 0 = [] :=
  List.eq_nil_of_length_eq_zero (length_slice m off 0)

@[simp] theorem getElem_slice (m : Nat → α) (off len i : Nat)
    (h : i < (slice m off len).length) :
    (slice m off len)[i] = m (off + i) := by
  simp [slice, List.getElem_range']

/-- Two slices agree as soon as the memories agree on the run. -/
theorem slice_congr {m m' : Nat → α} {off len : Nat}
    (h : ∀ i, off ≤ i → i < off + len → m' i = m i) :
    slice m' off len = slice m off len := by
  apply List.map_congr_left
  intro i hi
  rw [List.mem_range'_1] at hi
  exact h i hi.1 hi.2

/-- A slice splits at any inner point. -/
theorem slice_add (m : Nat → α) (off a b : Nat) :
    slice m off (a + b) = slice m off a ++ slice m (off + a) b := by
  apply List.ext_getElem
  · simp
  · intro i h1 h2
    rw [getElem_slice]
    by_cases hi : i < a
    · rw [List.getElem_append_left (by simpa using hi), getElem_slice]
    · rw [List.getElem_append_right (by simpa using hi), getElem_slice]
      congr 1
      rw [length_slice]
      omega

theorem take_slice (m : Nat → α) (off len k : Nat) (h : k ≤ len) :
    (slice m off len).take k = slice m off k := by
  obtain ⟨r, rfl⟩ := Nat.exists_eq_add_of_le h
  rw [slice_add, List.take_left' (length_slice m off k)]

theorem drop_slice (m : Nat → α) (off len k : Nat) (h : k ≤ len) :
    (slice m off len).drop k = slice m (off + k) (len - k) := by
  obtain ⟨r, rfl⟩ := Nat.exists_eq_add_of_le h
  rw [slice_add, List.drop_left' (length_slice m off k), Nat.add_sub_cancel_left]

/-! ## Copies -/

theorem memcpy_of_mem {m : Nat → α} {dst : Nat} {data : List α} {i : Nat}
    (hlo : dst ≤ i) (hhi : i - dst < data.length) :
    memcpy m dst data i = data[i - dst] := by
  rw [memcpy, dif_pos ⟨hlo, hhi⟩]

theorem memcpy_of_not_mem {m : Nat → α} {dst : Nat} {data : List α} {i : Nat}
    (h : i < dst ∨ dst + data.length ≤ i) : memcpy m dst data i = m i := by
  rw [memcpy, dif_neg (by omega)]

/-- A copy leaves its data in the run it was made to. -/
theorem slice_memcpy_self (m : Nat → α) (dst : Nat) (data : List α) :
    slice (memcpy m dst data) dst data.length = data := by
  apply List.ext_getElem
  · simp
  · intro i h1 h2
    rw [getElem_slice, memcpy_of_mem (Nat.le_add_right ..) (by omega)]
    congr 1
    omega

/-- A copy leaves every run it does not meet alone. -/
theorem slice_memcpy_of_disjoint (m : Nat → α) (dst : Nat) (data : List α) (off len : Nat)
    (h : off + len ≤ dst ∨ dst + data.length ≤ off) :
    slice (memcpy m dst data) off len = slice m off len := by
  apply slice_congr
  intro i hlo hhi
  exact memcpy_of_not_mem (by omega)

/-- A copy made right after a run extends the run by its data. -/
theorem slice_memcpy_append (m : Nat → α) (off len : Nat) (data : List α) :
    slice (memcpy m (off + len) data) off (len + data.length)
      = slice m off len ++ data := by
  rw [slice_add, slice_memcpy_of_disjoint _ _ _ _ _ (Or.inl (Nat.le_refl _)),
    slice_memcpy_self]

/-- A move leaves the source run's old cells at the destination. -/
theorem slice_memmove_self (m : Nat → α) (dst src len : Nat) :
    slice (memmove m dst src len) dst len = slice m src len := by
  have h := slice_memcpy_self m dst (slice m src len)
  rwa [length_slice] at h

end EasyGameServer.Lib
