/-
  EasyGameServer.CircularBuffer.Windows

  The two windows the buffer hands out without copying: the free one a receive
  writes into, and the stored one a send reads from.

  The free window together with the stored bytes is never less than half of the
  array, whatever has been done to the buffer.  The stored window stays where
  it is, byte for byte, through every sequence of `Write` and
  `GetFreeSpaceSize`: new bytes go behind A or below it, never into it.
-/

import EasyGameServer.CircularBuffer.Fifo

namespace EasyGameServer

open Lib

namespace CircularBuffer

variable {cb cb' : CircularBuffer}

/-! ## The capacity -/

theorem mBufferEnd_step {op : Op} {answer : Answer} (hv : cb.Valid)
    (h : object.step cb op = some (answer, cb')) : cb'.mBufferEnd = cb.mBufferEnd := by
  cases op with
  | write data n =>
      simp only [object] at h
      split at h
      next hn =>
        cases h
        exact (write_spec hv data n hn).2.2.1
      next => cases h
  | peek n =>
      cases h
      rfl
  | read n =>
      simp only [object] at h
      split at h
      next =>
        cases h
        rfl
      next out rest hread =>
        cases h
        have hn : n ≤ cb.getStoredSize := by
          by_contra hlt
          rw [read_none (Nat.lt_of_not_le hlt)] at hread
          cases hread
        obtain ⟨rest', hread', -, -, hend⟩ := read_spec hv hn
        rw [hread] at hread'
        cases hread'
        exact hend
  | remove k =>
      cases h
      exact (remove_spec hv k).2.2
  | getFreeSpaceSize =>
      cases h
      exact (getFreeSpaceSize_spec hv).2.2.1
  | receive data =>
      obtain ⟨hv', -, hend, hroom⟩ := getFreeSpaceSize_spec hv
      simp only [object] at h
      split at h
      next hfit =>
        cases h
        rw [hroom] at hfit
        exact (store_commit_spec hv' data hfit).2.2.trans hend
      next => cases h

theorem Reachable.mBufferEnd {capacity : Nat} (h : Reachable capacity cb) :
    cb.mBufferEnd = capacity := by
  obtain ⟨mem, ops, answers, hrun⟩ := h
  have hboth := object.run_invariant (I := fun cb => cb.Valid ∧ cb.mBufferEnd = capacity)
    (fun cb op answer cb' _ hI hstep =>
      ⟨(refines_fifo cb op answer cb' hI.1 hstep).1, (mBufferEnd_step hI.1 hstep).trans hI.2⟩)
    ⟨valid_new capacity mem, rfl⟩ hrun
  exact hboth.2

/-! ## The free window -/

/-- **Half of the array.**  In every state of a buffer the stored bytes and what
    `GetFreeSpaceSize` answers make up at least half of its capacity.  So a
    `Write` that leaves no more than half stored is not refused, and as long as
    a packet of no more than half has not arrived whole, there is room for
    more of it. -/
theorem half_stays_free (capacity : Nat) (cb : CircularBuffer) (hr : Reachable capacity cb) :
    capacity ≤ 2 * (cb.getStoredSize + cb.getFreeSpaceSize.1) ∧
      (∀ (data : List UInt8) (n : Nat), n ≤ data.length →
        cb.getStoredSize + n ≤ capacity / 2 → (cb.write data n).1 = true) ∧
      ∀ packet : Nat, packet ≤ capacity / 2 → cb.getStoredSize < packet →
        0 < cb.getFreeSpaceSize.1 := by
  have hhalf := half_capacity hr.valid
  rw [hr.mBufferEnd] at hhalf
  refine ⟨hhalf, fun data n hn hfit => ?_, fun packet hpacket hpart => ?_⟩
  · apply (write_spec hr.valid data n hn).2.2.2.mpr
    omega
  · omega

/-- Two bytes behind a drained half: the switch to B has been made. -/
theorem half_stays_free_switched :
    ∃ cb, Reachable 4 cb ∧ cb.mBRegionPointer.isSome = true ∧
      4 ≤ 2 * (cb.getStoredSize + cb.getFreeSpaceSize.1) := by
  have hr : Reachable 4 (((((new 4 (fun _ => 0)).write [1, 2, 3, 4] 4).2.remove 3).write
      [5] 1).2) :=
    ⟨fun _ => 0, [.write [1, 2, 3, 4] 4, .remove 3, .write [5] 1], _, rfl⟩
  exact ⟨_, hr, rfl, (half_stays_free 4 _ hr).1⟩

/-! ## The send window -/

/-- Does this append, or at most choose where to append? -/
def Op.isAppend : Op → Bool
  | .write _ _ => true
  | .getFreeSpaceSize => true
  | _ => false

/-- The bytes of the writes that were not refused. -/
def written : List Op → List Answer → List UInt8
  | .write data n :: ops, .ok true :: answers => data.take n ++ written ops answers
  | _ :: ops, _ :: answers => written ops answers
  | _, _ => []

theorem contents_append {before after : List UInt8} {ops : List Op} {answers : List Answer}
    (happend : ∀ op ∈ ops, op.isAppend = true) (h : fifo.Allowed before ops answers after) :
    after = before ++ written ops answers := by
  induction h with
  | nil => exact (List.append_nil _).symm
  | @cons before mid after op answer ops answers hallow hs ih =>
      have hmid := ih (fun op' hop => happend op' (List.mem_cons_of_mem _ hop))
      rw [hmid]
      cases op with
      | write data n =>
          rcases hallow with ⟨rfl, rfl⟩ | ⟨rfl, rfl⟩
          · exact List.append_assoc ..
          · rfl
      | getFreeSpaceSize =>
          obtain ⟨-, rfl⟩ := hallow
          rfl
      | _ => cases happend _ List.mem_cons_self

/-- The first bytes of A are these, from this offset on. -/
structure Holds (window : List UInt8) (start : Nat) (cb : CircularBuffer) : Prop where
  valid : cb.Valid
  pointer : cb.mARegionPointer = start
  inside : window.length ≤ cb.mARegionSize
  bytes : slice cb.mBuffer start window.length = window

namespace Holds

variable {window : List UInt8} {start : Nat}

theorem take_contents (h : Holds window start cb) :
    cb.contents.take window.length = window := by
  have hinside := h.inside
  rw [contents, h.pointer, List.take_append_of_le_length (by rw [length_slice]; omega),
    take_slice _ _ _ _ hinside]
  exact h.bytes

/-- Choosing the region to write to moves nothing. -/
theorem getFreeSpaceSize (h : Holds window start cb) :
    Holds window start cb.getFreeSpaceSize.2 := by
  unfold CircularBuffer.getFreeSpaceSize
  split
  next => exact h
  next hB =>
    split
    next hlt =>
      have hv := valid_allocateB h.valid (Option.not_isSome_iff_eq_none.mp hB) hlt
      exact ⟨hv, h.pointer, h.inside, h.bytes⟩
    next => exact h

/-- What is stored at the write position is stored elsewhere. -/
theorem store_commit (h : Holds window start cb) (data : List UInt8)
    (hfit : data.length ≤ cb.room) :
    Holds window start ((cb.store data).commit data.length) := by
  have hv := (store_commit_spec h.valid data hfit).1
  have hinside := h.inside
  have hpointer := h.pointer
  have hframe : slice (memcpy cb.mBuffer cb.getBuffer data) start window.length = window := by
    rw [slice_memcpy_of_disjoint]
    · exact h.bytes
    · rw [getBuffer]
      cases hB : cb.mBRegionPointer with
      | none =>
          left
          show start + window.length ≤ cb.mARegionPointer + cb.mARegionSize
          omega
      | some b =>
          right
          obtain ⟨rfl, hle⟩ := h.valid.bBase b hB
          rw [room, hB, Option.isSome_some, if_pos rfl] at hfit
          show 0 + cb.mBRegionSize + data.length ≤ start
          omega
  cases hB : cb.mBRegionPointer with
  | none =>
      have heq : (cb.store data).commit data.length =
          { cb.store data with mARegionSize := cb.mARegionSize + data.length } := by
        rw [commit, store, hB]
        rfl
      rw [heq] at hv ⊢
      exact ⟨hv, hpointer, Nat.le_add_right_of_le hinside, hframe⟩
  | some b =>
      have heq : (cb.store data).commit data.length =
          { cb.store data with mBRegionSize := cb.mBRegionSize + data.length } := by
        rw [commit, store, hB]
        rfl
      rw [heq] at hv ⊢
      exact ⟨hv, hpointer, hinside, hframe⟩

theorem write (h : Holds window start cb) (data : List UInt8) (n : Nat) (hn : n ≤ data.length) :
    Holds window start (cb.write data n).2 := by
  have hroom := (getFreeSpaceSize_spec h.valid).2.2.2
  have hlen : (data.take n).length = n := by
    rw [List.length_take]
    omega
  rw [write_eq]
  split
  next => exact h.getFreeSpaceSize
  next hfit =>
    have hstored := h.getFreeSpaceSize.store_commit (data.take n) (by omega)
    rwa [hlen] at hstored

theorem step {op : Op} {answer : Answer} (h : Holds window start cb)
    (happend : op.isAppend = true) (hstep : object.step cb op = some (answer, cb')) :
    Holds window start cb' := by
  cases op with
  | write data n =>
      simp only [object] at hstep
      split at hstep
      next hn =>
        cases hstep
        exact h.write data n hn
      next => cases hstep
  | getFreeSpaceSize =>
      cases hstep
      exact h.getFreeSpaceSize
  | _ => cases happend

end Holds

/-- What `GetBufferStart` and `GetContiguiousBytes` delimit, when it is not
    empty, is the whole of A. -/
theorem holds_window (hv : cb.Valid) (hpos : 0 < cb.getContiguousBytes) :
    cb.getBufferStart = some cb.mARegionPointer ∧ cb.getContiguousBytes = cb.mARegionSize ∧
      Holds (slice cb.mBuffer cb.mARegionPointer cb.mARegionSize) cb.mARegionPointer cb := by
  have hA : 0 < cb.mARegionSize := by
    by_contra hzero
    have hA0 : cb.mARegionSize = 0 := Nat.eq_zero_of_not_pos hzero
    rw [getContiguousBytes, if_neg hzero, hv.bNull (hv.aEmpty hA0).2] at hpos
    exact Nat.lt_irrefl 0 hpos
  refine ⟨if_pos hA, if_pos hA, hv, rfl, Nat.le_of_eq (length_slice ..), ?_⟩
  rw [length_slice]

/-- **The send window.**  In every state of a buffer whose stored window is not
    empty, and after every sequence of `Write`, refused or not, and
    `GetFreeSpaceSize`: the window's bytes are where they were and are still
    the first that are stored, and removing some of them leaves the rest of
    them, then whatever had been written after them. -/
theorem send_window_kept (capacity : Nat) (cb : CircularBuffer) (hr : Reachable capacity cb)
    (hpos : 0 < cb.getContiguousBytes) :
    ∃ start, cb.getBufferStart = some start ∧
      slice cb.mBuffer start cb.getContiguousBytes = cb.contents.take cb.getContiguousBytes ∧
      ∀ (ops : List Op) (answers : List Answer) (cb' : CircularBuffer),
        (∀ op ∈ ops, op.isAppend = true) → object.run cb ops = some (answers, cb') →
        slice cb'.mBuffer start cb.getContiguousBytes
            = slice cb.mBuffer start cb.getContiguousBytes ∧
          cb'.contents.take cb.getContiguousBytes
            = slice cb.mBuffer start cb.getContiguousBytes ∧
          ∀ k ≤ cb.getContiguousBytes, (cb'.remove k).contents =
            (slice cb.mBuffer start cb.getContiguousBytes).drop k
              ++ (cb.contents.drop cb.getContiguousBytes ++ written ops answers) := by
  obtain ⟨hstart, hlen, hholds⟩ := holds_window hr.valid hpos
  rw [hlen]
  have hfront := hholds.take_contents
  rw [length_slice] at hfront
  refine ⟨cb.mARegionPointer, hstart, hfront.symm, fun ops answers cb' happend hrun => ?_⟩
  have hholds' := object.run_invariant (fun cb op answer cb' hop h hstep =>
    Holds.step h (happend op hop) hstep) hholds hrun
  have hbytes := hholds'.bytes
  have htake := hholds'.take_contents
  rw [length_slice] at hbytes htake
  refine ⟨hbytes, htake, fun k hk => ?_⟩
  have hgrown := contents_append happend (refines_fifo.run hr.valid hrun).2
  have hsplit : cb.contents = slice cb.mBuffer cb.mARegionPointer cb.mARegionSize
      ++ cb.contents.drop cb.mARegionSize := by
    rw [← hfront, List.take_append_drop]
  rw [(remove_spec hholds'.valid k).2.1, hgrown]
  calc (cb.contents ++ written ops answers).drop k
      = (slice cb.mBuffer cb.mARegionPointer cb.mARegionSize
          ++ (cb.contents.drop cb.mARegionSize ++ written ops answers)).drop k := by
        rw [← List.append_assoc, ← hsplit]
    _ = _ := List.drop_append_of_le_length (by rw [length_slice]; exact hk)

/-- A window above the middle, with a write that goes below it. -/
theorem send_window_kept_wrapped :
    ∃ cb start answers cb', Reachable 4 cb ∧ cb.getBufferStart = some start ∧
      object.run cb [.write [5, 6] 2] = some (answers, cb') ∧
      slice cb'.mBuffer start cb.getContiguousBytes
        = slice cb.mBuffer start cb.getContiguousBytes := by
  have hr : Reachable 4 (((new 4 (fun _ => 0)).write [1, 2, 3, 4] 4).2.remove 3) :=
    ⟨fun _ => 0, [.write [1, 2, 3, 4] 4, .remove 3], _, rfl⟩
  obtain ⟨start, hstart, -, hall⟩ := send_window_kept 4 _ hr (by decide)
  have hkept := hall [.write [5, 6] 2] _ _ (by decide) rfl
  exact ⟨_, start, _, _, hr, hstart, rfl, hkept.1⟩

end CircularBuffer
end EasyGameServer
