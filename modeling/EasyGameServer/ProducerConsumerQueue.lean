/-
  EasyGameServer.ProducerConsumerQueue

  The bounded queue of `ProducerConsumerQueue.h`: the critical sections of
  `Produce` and `Consume`, between taking the lock and releasing or sleeping.
  A section that finds nothing to do answers `none`: a waiting caller sleeps
  and tries again, the others return false.

  The two counters are `uint32_t`.  They carry their bounds, so the index the
  sections compute is always inside the array.
-/

import EasyGameServer.Lib.Memory
import Mathlib.Data.Nat.ModEq

namespace EasyGameServer

open Lib

/-- `uint32_t` arithmetic. -/
def u32 (n : Nat) : Nat := n % 2 ^ 32

theorem u32_of_lt {n : Nat} (h : n < 2 ^ 32) : u32 n = n := Nat.mod_eq_of_lt h

/-- What the template parameter `int QSize` may be. -/
class QueueSize (QSize : Nat) : Prop where
  pos : 0 < QSize
  lt : QSize < 2 ^ 31

structure ProducerConsumerQueue (TElem : Type _) (QSize : Nat) where
  mQueueArray : Nat → TElem
  mOccupiedSize : Nat
  mQueueOffset : Nat
  occupied_le : mOccupiedSize ≤ QSize
  offset_lt : mQueueOffset < QSize

namespace ProducerConsumerQueue

variable {TElem : Type _} {QSize : Nat} [QueueSize QSize]

/-- The constructor; `zero` is the value of zeroed memory. -/
def new (zero : TElem) : ProducerConsumerQueue TElem QSize where
  mQueueArray := fun _ => zero
  mOccupiedSize := 0
  mQueueOffset := 0
  occupied_le := Nat.zero_le _
  offset_lt := QueueSize.pos

/-- The critical section of `Produce`. -/
def produce (q : ProducerConsumerQueue TElem QSize) (item : TElem) :
    Option (ProducerConsumerQueue TElem QSize) :=
  if h : q.mOccupiedSize = QSize then none
  else
    some
      { q with
        mQueueArray :=
          memcpy q.mQueueArray (u32 (q.mQueueOffset + q.mOccupiedSize) % QSize) [item]
        mOccupiedSize := u32 (q.mOccupiedSize + 1)
        occupied_le := by
          have hle := q.occupied_le
          have hlt : QSize < 2 ^ 31 := QueueSize.lt
          rw [u32_of_lt (by omega)]
          omega }

/-- The critical section of `Consume`. -/
def consume (q : ProducerConsumerQueue TElem QSize) :
    Option (TElem × ProducerConsumerQueue TElem QSize) :=
  if q.mOccupiedSize = 0 then none
  else
    some (q.mQueueArray q.mQueueOffset,
      { q with
        mOccupiedSize := q.mOccupiedSize - 1
        mQueueOffset := if u32 (q.mQueueOffset + 1) = QSize then 0 else u32 (q.mQueueOffset + 1)
        occupied_le := by
          have hle := q.occupied_le
          omega
        offset_lt := by
          have hlt := q.offset_lt
          have hsize : QSize < 2 ^ 31 := QueueSize.lt
          rw [u32_of_lt (by omega)]
          split <;> omega })

/-! ## The queue as a list -/

/-- The queued items, the oldest first. -/
def contents (q : ProducerConsumerQueue TElem QSize) : List TElem :=
  (List.range q.mOccupiedSize).map (fun i => q.mQueueArray ((q.mQueueOffset + i) % QSize))

omit [QueueSize QSize] in
@[simp] theorem length_contents (q : ProducerConsumerQueue TElem QSize) :
    q.contents.length = q.mOccupiedSize := by
  simp [contents]

@[simp] theorem contents_new (zero : TElem) :
    (new zero : ProducerConsumerQueue TElem QSize).contents = [] := rfl

theorem produce_eq_none_iff (q : ProducerConsumerQueue TElem QSize) (item : TElem) :
    q.produce item = none ↔ q.mOccupiedSize = QSize := by
  unfold produce
  split
  next h => exact ⟨fun _ => h, fun _ => rfl⟩
  next h => exact ⟨nofun, fun h' => absurd h' h⟩

theorem consume_eq_none_iff (q : ProducerConsumerQueue TElem QSize) :
    q.consume = none ↔ q.contents = [] := by
  rw [← List.length_eq_zero_iff, length_contents]
  unfold consume
  split
  next h => exact ⟨fun _ => h, fun _ => rfl⟩
  next h => exact ⟨nofun, fun h' => absurd h' h⟩

omit [QueueSize QSize] in
/-- Within the array, two distances from the offset meet only when equal. -/
theorem index_inj {off i j : Nat} (hi : i < QSize) (hj : j < QSize)
    (h : (off + i) % QSize = (off + j) % QSize) : i = j := by
  have hmod : i % QSize = j % QSize := Nat.ModEq.add_left_cancel (Nat.ModEq.refl off) h
  rwa [Nat.mod_eq_of_lt hi, Nat.mod_eq_of_lt hj] at hmod

/-- `Produce` appends its item. -/
theorem contents_produce {q q' : ProducerConsumerQueue TElem QSize} {item : TElem}
    (h : q.produce item = some q') : q'.contents = q.contents ++ [item] := by
  have hle := q.occupied_le
  have hoff := q.offset_lt
  have hsize : QSize < 2 ^ 31 := QueueSize.lt
  unfold produce at h
  split at h
  · cases h
  next hfull =>
    cases h
    have hocc : u32 (q.mOccupiedSize + 1) = q.mOccupiedSize + 1 := u32_of_lt (by omega)
    have hidx : u32 (q.mQueueOffset + q.mOccupiedSize) = q.mQueueOffset + q.mOccupiedSize :=
      u32_of_lt (by omega)
    simp only [contents, hocc, hidx, List.range_succ, List.map_append]
    congr 1
    · -- the slot written is none of the occupied ones
      apply List.map_congr_left
      intro i hi
      rw [List.mem_range] at hi
      have hne : (q.mQueueOffset + i) % QSize
          ≠ (q.mQueueOffset + q.mOccupiedSize) % QSize := by
        intro heq
        have := index_inj (by omega) (by omega) heq
        omega
      exact memcpy_of_not_mem (by rw [List.length_singleton]; omega)
    · simp [memcpy]

/-- `Consume` takes the oldest item. -/
theorem contents_consume {q q' : ProducerConsumerQueue TElem QSize} {item : TElem}
    (h : q.consume = some (item, q')) : q.contents = item :: q'.contents := by
  have hle := q.occupied_le
  have hoff := q.offset_lt
  have hsize : QSize < 2 ^ 31 := QueueSize.lt
  unfold consume at h
  split at h
  · cases h
  next hne =>
    cases h
    obtain ⟨n, hn⟩ := Nat.exists_eq_succ_of_ne_zero hne
    unfold contents
    simp only [hn, Nat.succ_eq_add_one, Nat.add_sub_cancel, List.range_succ_eq_map,
      List.map_cons, List.map_map, Nat.add_zero, Nat.mod_eq_of_lt hoff, List.cons.injEq,
      true_and]
    apply List.map_congr_left
    intro i _
    rw [u32_of_lt (by omega)]
    by_cases hwrap : q.mQueueOffset + 1 = QSize
    · have hidx : q.mQueueOffset + (i + 1) = i + QSize := by omega
      rw [if_pos hwrap]
      simp [hidx]
    · rw [if_neg hwrap]
      have hidx : q.mQueueOffset + (i + 1) = q.mQueueOffset + 1 + i := by omega
      simp [hidx]

/-- There is room as long as the list is shorter than the queue. -/
theorem exists_produce {q : ProducerConsumerQueue TElem QSize} (item : TElem)
    (h : q.contents.length < QSize) : ∃ q', q.produce item = some q' := by
  rw [length_contents] at h
  cases hp : q.produce item with
  | some q' => exact ⟨q', rfl⟩
  | none =>
      have := (produce_eq_none_iff q item).mp hp
      omega

/-- There is something to take as long as the list is not empty. -/
theorem exists_consume {q : ProducerConsumerQueue TElem QSize} {item : TElem} {rest : List TElem}
    (h : q.contents = item :: rest) : ∃ q', q.consume = some (item, q') ∧ q'.contents = rest := by
  cases hc : q.consume with
  | none =>
      rw [(consume_eq_none_iff q).mp hc] at h
      cases h
  | some r =>
      have hcontents := contents_consume hc
      rw [h] at hcontents
      obtain ⟨hitem, hrest⟩ := List.cons.inj hcontents
      exact ⟨r.2, by rw [hitem], hrest.symm⟩

theorem length_lt_of_produce {q q' : ProducerConsumerQueue TElem QSize} {item : TElem}
    (h : q.produce item = some q') : q.contents.length < QSize := by
  have hne : q.mOccupiedSize ≠ QSize := fun hfull => by
    rw [(produce_eq_none_iff q item).mpr hfull] at h
    cases h
  rw [length_contents]
  exact Nat.lt_of_le_of_ne q.occupied_le hne

end ProducerConsumerQueue
end EasyGameServer
