/-
  EasyGameServer.CircularBuffer.Observe

  What callers can see of the switch to B.  `GetFreeSpaceSize`, and a `Write`
  that is refused, may allocate the B region and leave it empty.  Whoever does
  not do so comes to it with the next byte that is written: `AllocateB` is
  chosen by sizes that only an empty A region changes, and an empty A region
  drops B as well.  So the two buffers stay one `AllocateB` apart, or become
  one, and answer alike.
-/

import EasyGameServer.CircularBuffer.Fifo

namespace EasyGameServer

open Lib

namespace CircularBuffer

/-- Everything the class lets its callers do. -/
inductive Call where
  | op (o : Op)
  | getStoredSize
  | getContiguousBytes
  | getBufferStart

/-- Everything it lets them see. -/
inductive Reply where
  | answer (a : Answer)
  | received (free buffer : Nat)
  | size (n : Nat)
  | window (start : Option Nat) (bytes : List UInt8)

/-- The class with all that its callers see: a receive sequence shows the size
    and the address it was given, and `GetBufferStart` the bytes that may be
    read there. -/
def watched : Object CircularBuffer Call Reply where
  step cb
    | .op (.receive data) =>
        (object.step cb (.receive data)).map (fun r =>
          (.received cb.getFreeSpaceSize.1 cb.getFreeSpaceSize.2.getBuffer, r.2))
    | .op o => (object.step cb o).map (fun r => (.answer r.1, r.2))
    | .getStoredSize => some (.size cb.getStoredSize, cb)
    | .getContiguousBytes => some (.size cb.getContiguousBytes, cb)
    | .getBufferStart =>
        some (.window cb.getBufferStart
          (slice cb.mBuffer (cb.getBufferStart.getD 0) cb.getContiguousBytes), cb)

/-- The second buffer is the first, or has switched to B where the first is
    about to. -/
inductive Switched : CircularBuffer → CircularBuffer → Prop
  | same (cb : CircularBuffer) : Switched cb cb
  | ahead (cb : CircularBuffer) (hnone : cb.mBRegionPointer = none)
      (hlt : cb.getAFreeSpace < cb.getSpaceBeforeA) : Switched cb cb.allocateB

variable {cb cb' : CircularBuffer}

/-! ## One switch earlier or later -/

/-- `GetFreeSpaceSize` makes the switch. -/
theorem getFreeSpaceSize_of_ahead (hnone : cb.mBRegionPointer = none)
    (hlt : cb.getAFreeSpace < cb.getSpaceBeforeA) :
    cb.getFreeSpaceSize = (cb.allocateB.getBFreeSpace, cb.allocateB) := by
  unfold getFreeSpaceSize
  rw [hnone, if_neg (by decide), if_pos hlt]

theorem getFreeSpaceSize_allocateB (cb : CircularBuffer) :
    cb.allocateB.getFreeSpaceSize = (cb.allocateB.getBFreeSpace, cb.allocateB) := rfl

theorem Switched.getFreeSpaceSize_eq (h : Switched cb cb') :
    cb'.getFreeSpaceSize = cb.getFreeSpaceSize := by
  cases h with
  | same => rfl
  | ahead hnone hlt =>
      rw [getFreeSpaceSize_of_ahead hnone hlt, getFreeSpaceSize_allocateB]

/-- So do `Write` and a receive, which begin as `GetFreeSpaceSize` does. -/
theorem Switched.write_eq (h : Switched cb cb') (data : List UInt8) (n : Nat) :
    cb'.write data n = cb.write data n := by
  rw [CircularBuffer.write_eq, CircularBuffer.write_eq, h.getFreeSpaceSize_eq]

theorem Switched.receive_eq (h : Switched cb cb') (data : List UInt8) :
    object.step cb' (.receive data) = object.step cb (.receive data) := by
  simp only [object, h.getFreeSpaceSize_eq]

/-! ## Removing from the front -/

/-- `Read` leaves what `Remove` leaves. -/
theorem read_eq_remove {n : Nat} (hn : n ≤ cb.getStoredSize) :
    cb.read n = some (cb.contents.take n, cb.remove n) := by
  obtain ⟨a, b, ha, hb, hale, hble, hab, hsum⟩ := split_request hn
  have hremove : cb.remove n = (cb.advance a b).collapse := by
    have hb' : (if n - a > 0 ∧ cb.mBRegionSize > 0 then
        (if n - a > cb.mBRegionSize then cb.mBRegionSize else n - a) else 0) = b := by
      rw [← hb]
      split
      · split <;> omega
      · rfl
    unfold remove
    simp only [ha, hb']
  unfold read
  rw [if_neg (by rw [getStoredSize] at hn; omega)]
  simp only [ha, hb]
  rw [take_contents cb hale hble hab, hsum, hremove]

/-- Without a byte in B only A moves. -/
theorem remove_of_bEmpty (hempty : cb.mBRegionSize = 0) (n : Nat) :
    cb.remove n = (cb.advance (min n cb.mARegionSize) 0).collapse := by
  have ha : (if cb.mARegionSize > 0 then
      (if n > cb.mARegionSize then cb.mARegionSize else n) else 0) = min n cb.mARegionSize := by
    split
    · split <;> omega
    · omega
  unfold remove
  simp only [ha, hempty, Nat.lt_irrefl, and_false, if_false, gt_iff_lt]

theorem Switched.remove (h : Switched cb cb') (hv : cb.Valid) (n : Nat) :
    Switched (cb.remove n) (cb'.remove n) := by
  cases h with
  | same => exact .same _
  | ahead hnone hlt =>
      have hempty := hv.bNull hnone
      have hempty' : cb.allocateB.mBRegionSize = 0 := hempty
      rw [remove_of_bEmpty hempty, remove_of_bEmpty hempty']
      show Switched (cb.advance (min n cb.mARegionSize) 0).collapse
        (cb.advance (min n cb.mARegionSize) 0).allocateB.collapse
      generalize hk : min n cb.mARegionSize = k
      by_cases hA : cb.mARegionSize - k = 0
      · -- an empty A region drops B, allocated or not
        have hdrop : (cb.advance k 0).allocateB.collapse = (cb.advance k 0).collapse := by
          unfold collapse
          simp only [advance, allocateB, hA, hempty, Nat.sub_zero, Nat.lt_irrefl, if_true,
            if_false, gt_iff_lt]
        rw [hdrop]
        exact .same _
      · have hkeep : ∀ c : CircularBuffer, c.mARegionSize = cb.mARegionSize - k →
            c.collapse = c := by
          intro c hc
          unfold collapse
          rw [if_neg (by rw [hc]; exact hA)]
        rw [hkeep _ rfl, hkeep _ rfl]
        refine .ahead _ ?_ ?_
        · show cb.mBRegionPointer.map (· + 0) = none
          rw [hnone]
          rfl
        · -- the end of A has not moved, and its start has gone up
          have hkle : k ≤ cb.mARegionSize := by
            rw [← hk]
            exact Nat.min_le_right ..
          have hin := hv.aInside
          rw [getAFreeSpace_eq hv, getSpaceBeforeA] at hlt
          show sizeSub (sizeSub cb.mBufferEnd (cb.mARegionPointer + k)) (cb.mARegionSize - k)
            < cb.mARegionPointer + k
          rw [sizeSub_of_le (a := cb.mBufferEnd) (by omega), sizeSub_of_le (by omega)]
          omega

/-! ## Nobody can tell -/

theorem Switched.contents_eq (h : Switched cb cb') : cb'.contents = cb.contents := by
  cases h with
  | same => rfl
  | ahead hnone hlt => exact contents_allocateB hnone

theorem Switched.getStoredSize_eq (h : Switched cb cb') :
    cb'.getStoredSize = cb.getStoredSize := by
  rw [← length_contents, ← length_contents, h.contents_eq]

theorem Switched.getContiguousBytes_eq (h : Switched cb cb') :
    cb'.getContiguousBytes = cb.getContiguousBytes := by
  cases h <;> rfl

/-- B is only switched to when A is not empty. -/
theorem Switched.getBufferStart_eq (h : Switched cb cb') (hv : cb.Valid) :
    cb'.getBufferStart = cb.getBufferStart := by
  cases h with
  | same => rfl
  | ahead hnone hlt =>
      have hA : cb.mARegionSize > 0 := by
        by_contra hzero
        have hstart := (hv.aEmpty (Nat.eq_zero_of_not_pos hzero)).1
        rw [getSpaceBeforeA, hstart] at hlt
        exact Nat.not_lt_zero _ hlt
      have hA' : cb.allocateB.mARegionSize > 0 := hA
      rw [getBufferStart, getBufferStart, if_pos hA, if_pos hA']
      rfl

theorem Switched.mBuffer_eq (h : Switched cb cb') : cb'.mBuffer = cb.mBuffer := by
  cases h <;> rfl

/-- Valid buffers, one switch apart at most. -/
def Alike (cb cb' : CircularBuffer) : Prop := cb.Valid ∧ Switched cb cb'

theorem object_bisimulation : object.Bisimulation Alike := by
  rintro cb cb' op ⟨hv, h⟩
  -- an operation that begins with the switch ends in one buffer
  have hjoin : object.step cb' op = object.step cb op →
      Option.Rel (fun p q => p.1 = q.1 ∧ Alike p.2 q.2) (object.step cb op)
        (object.step cb' op) := by
    intro heq
    rw [heq]
    cases hs : object.step cb op with
    | none => exact .none
    | some p => exact .some ⟨rfl, (refines_fifo cb op p.1 p.2 hv hs).1, .same _⟩
  cases op with
  | write data n => exact hjoin (by simp only [object, h.write_eq])
  | receive data => exact hjoin (h.receive_eq data)
  | getFreeSpaceSize => exact hjoin (by simp only [object, h.getFreeSpaceSize_eq])
  | peek n =>
      refine .some ⟨?_, hv, h⟩
      show Answer.bytes (cb.peek n) = Answer.bytes (cb'.peek n)
      rw [peek_spec, peek_spec, h.contents_eq, h.getStoredSize_eq]
  | remove k => exact .some ⟨rfl, (remove_spec hv k).1, h.remove hv k⟩
  | read n =>
      simp only [object]
      by_cases hn : n ≤ cb.getStoredSize
      · have hn' : n ≤ cb'.getStoredSize := h.getStoredSize_eq ▸ hn
        rw [read_eq_remove hn, read_eq_remove hn', h.contents_eq]
        exact .some ⟨rfl, (remove_spec hv n).1, h.remove hv n⟩
      · have hlt := Nat.lt_of_not_le hn
        have hlt' : cb'.getStoredSize < n := h.getStoredSize_eq ▸ hlt
        rw [read_none hlt, read_none hlt']
        exact .some ⟨rfl, hv, h⟩

theorem watched_bisimulation : watched.Bisimulation Alike := by
  rintro cb cb' call ⟨hv, h⟩
  cases call with
  | getStoredSize => exact .some ⟨congrArg Reply.size h.getStoredSize_eq.symm, hv, h⟩
  | getContiguousBytes => exact .some ⟨congrArg Reply.size h.getContiguousBytes_eq.symm, hv, h⟩
  | getBufferStart =>
      refine .some ⟨?_, hv, h⟩
      simp only [h.getBufferStart_eq hv, h.getContiguousBytes_eq, h.mBuffer_eq]
  | op o =>
      have hstep := object_bisimulation cb cb' o ⟨hv, h⟩
      cases o with
      | receive data =>
          simp only [watched, h.getFreeSpaceSize_eq]
          generalize object.step cb (.receive data) = x at hstep
          generalize object.step cb' (.receive data) = y at hstep
          cases hstep with
          | none => exact .none
          | some hpq => exact .some ⟨rfl, hpq.2⟩
      | _ =>
          simp only [watched]
          generalize object.step cb _ = x at hstep ⊢
          generalize object.step cb' _ = y at hstep ⊢
          cases hstep with
          | none => exact .none
          | some hpq => exact .some ⟨congrArg Reply.answer hpq.1, hpq.2⟩

/-- `GetFreeSpaceSize` switches or does nothing. -/
theorem switched_getFreeSpaceSize (cb : CircularBuffer) :
    Switched cb cb.getFreeSpaceSize.2 := by
  unfold getFreeSpaceSize
  split
  next => exact .same cb
  next hB =>
    split
    next hlt => exact .ahead cb (Option.not_isSome_iff_eq_none.mp hB) hlt
    next => exact .same cb

/-- **The switch cannot be seen.**  In every state of a buffer, an extra
    `GetFreeSpaceSize` and a `Write` that is refused leave a buffer that answers
    every sequence of calls as it would have been answered without; and a
    `Write` is refused exactly when it is longer than what `GetFreeSpaceSize`
    answers. -/
theorem switch_unobserved (capacity : Nat) (cb : CircularBuffer) (hr : Reachable capacity cb) :
    (∀ cb', (cb' = cb.getFreeSpaceSize.2 ∨ ∃ data n, cb.write data n = (false, cb')) →
      ∀ calls : List Call,
        (watched.run cb' calls).map Prod.fst = (watched.run cb calls).map Prod.fst) ∧
      ∀ (data : List UInt8) (n : Nat),
        (cb.write data n).1 = true ↔ n ≤ cb.getFreeSpaceSize.1 := by
  constructor
  · intro cb' hcb' calls
    have hafter : cb' = cb.getFreeSpaceSize.2 := by
      rcases hcb' with h | ⟨data, n, h⟩
      · exact h
      · rw [write_eq] at h
        split at h
        next => exact (Prod.mk.inj h).2.symm
        next => cases h
    rw [hafter]
    exact (watched_bisimulation.run_eq ⟨hr.valid, switched_getFreeSpaceSize cb⟩ calls).symm
  · intro data n
    rw [write_eq]
    split
    next hlt => exact ⟨fun h => absurd h Bool.false_ne_true, fun h => absurd hlt (Nat.not_lt.mpr h)⟩
    next hge => exact ⟨fun _ => Nat.not_lt.mp hge, fun _ => rfl⟩

/-- A refused write that allocates B. -/
theorem switch_unobserved_refused :
    ∃ cb cb', Reachable 4 cb ∧ cb.write [5, 6, 7, 8] 4 = (false, cb') ∧
      cb'.mBRegionPointer ≠ cb.mBRegionPointer ∧
      (watched.run cb' [.op (.write [5] 1), .op (.read 2)]).map Prod.fst
        = (watched.run cb [.op (.write [5] 1), .op (.read 2)]).map Prod.fst := by
  have hr : Reachable 4 (((new 4 (fun _ => 0)).write [1, 2, 3, 4] 4).2.remove 3) :=
    ⟨fun _ => 0, [.write [1, 2, 3, 4] 4, .remove 3], _, rfl⟩
  exact ⟨_, _, hr, rfl, by decide,
    (switch_unobserved 4 _ hr).1 _ (Or.inr ⟨[5, 6, 7, 8], 4, rfl⟩) _⟩

end CircularBuffer
end EasyGameServer
