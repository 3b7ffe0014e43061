/-
  EasyGameServer.CircularBuffer.Checked

  The operations of the buffer once more, statement by statement, with a check
  wherever the source relies on the layout: a difference of sizes or pointers
  must not wrap, a copy must stay inside the array, one that writes must not
  touch a stored byte, `nullptr` must not be read from, and an assertion must
  hold.  The first check that fails ends the operation with `none`.

  In every state of a buffer none fails, and the operations are those without
  checks.  The layout is broken and restored on the way: `Read` and `Remove`
  shrink both regions before the last block moves B, so what the checks in
  that block need is said of the shrunken buffer.
-/

import EasyGameServer.CircularBuffer.Windows
import Mathlib.Data.Option.Basic

namespace EasyGameServer

open Lib

namespace CircularBuffer

/-! ## The checks -/

def checkedSub (a b : Nat) : Option Nat := if b ≤ a then some (a - b) else none

/-- Does the array hold a stored byte there? -/
def Live (cb : CircularBuffer) (i : Nat) : Prop :=
  (cb.mARegionPointer ≤ i ∧ i < cb.mARegionPointer + cb.mARegionSize) ∨
    (cb.mBRegionPointer.getD 0 ≤ i ∧ i < cb.mBRegionPointer.getD 0 + cb.mBRegionSize)

instance (cb : CircularBuffer) (i : Nat) : Decidable (cb.Live i) :=
  inferInstanceAs (Decidable (_ ∨ _))

/-- A `memcpy` out of the array. -/
def copyOut (cb : CircularBuffer) (src len : Nat) : Option (List UInt8) :=
  if src + len ≤ cb.mBufferEnd then some (slice cb.mBuffer src len) else none

/-- A `memcpy` into the array, off the stored bytes. -/
def copyIn (cb : CircularBuffer) (dst : Nat) (data : List UInt8) : Option CircularBuffer :=
  if dst + data.length ≤ cb.mBufferEnd ∧ ∀ i < dst + data.length, dst ≤ i → ¬ cb.Live i then
    some { cb with mBuffer := memcpy cb.mBuffer dst data }
  else none

/-- A `memmove` within the array, off the stored bytes except the moved ones. -/
def moveWithin (cb : CircularBuffer) (dst src len : Nat) : Option CircularBuffer :=
  if dst + len ≤ cb.mBufferEnd ∧ src + len ≤ cb.mBufferEnd ∧
      ∀ i < dst + len, dst ≤ i → cb.Live i → src ≤ i ∧ i < src + len then
    some { cb with mBuffer := memmove cb.mBuffer dst src len }
  else none

namespace Checked

/-! ## The operations -/

def getAFreeSpace (cb : CircularBuffer) : Option Nat := do
  let behindA ← checkedSub cb.mBufferEnd cb.mARegionPointer
  checkedSub behindA cb.mARegionSize

def getSpaceBeforeA (cb : CircularBuffer) : Option Nat := checkedSub cb.mARegionPointer 0

def getBFreeSpace (cb : CircularBuffer) : Option Nat :=
  match cb.mBRegionPointer with
  | none => some 0
  | some b => do
      let beforeA ← checkedSub cb.mARegionPointer b
      checkedSub beforeA cb.mBRegionSize

def getFreeSpaceSize (cb : CircularBuffer) : Option (Nat × CircularBuffer) :=
  if cb.mBRegionPointer.isSome then do
    let free ← getBFreeSpace cb
    some (free, cb)
  else do
    let aFree ← getAFreeSpace cb
    let before ← getSpaceBeforeA cb
    if aFree < before then
      let free ← getBFreeSpace cb.allocateB
      some (free, cb.allocateB)
    else
      let free ← getAFreeSpace cb
      some (free, cb)

def writeB (cb : CircularBuffer) (data : List UInt8) (bytes : Nat) :
    Option (Bool × CircularBuffer) := do
  let free ← getBFreeSpace cb
  if free < bytes then some (false, cb)
  else
    let b ← cb.mBRegionPointer
    let cb ← cb.copyIn (b + cb.mBRegionSize) (data.take bytes)
    some (true, { cb with mBRegionSize := cb.mBRegionSize + bytes })

def write (cb : CircularBuffer) (data : List UInt8) (bytes : Nat) :
    Option (Bool × CircularBuffer) :=
  if cb.mBRegionPointer.isSome then writeB cb data bytes
  else do
    let aFree ← getAFreeSpace cb
    let before ← getSpaceBeforeA cb
    if aFree < before then writeB cb.allocateB data bytes
    else
      let free ← getAFreeSpace cb
      if free < bytes then some (false, cb)
      else
        let cb ← cb.copyIn (cb.mARegionPointer + cb.mARegionSize) (data.take bytes)
        some (true, { cb with mARegionSize := cb.mARegionSize + bytes })

/-- The part of `Peek` and `Read` that copies from A: the bytes, how many, and
    how many are still to be copied. -/
def copyA (cb : CircularBuffer) (cnt : Nat) : Option (List UInt8 × Nat × Nat) :=
  if cb.mARegionSize > 0 then do
    let aRead := if cnt > cb.mARegionSize then cb.mARegionSize else cnt
    let out ← cb.copyOut cb.mARegionPointer aRead
    let cnt ← checkedSub cnt aRead
    some (out, aRead, cnt)
  else some ([], 0, cnt)

/-- The part that copies from B. -/
def copyB (cb : CircularBuffer) (cnt : Nat) : Option (List UInt8 × Nat × Nat) :=
  if cnt > 0 ∧ cb.mBRegionSize > 0 then do
    guard (cnt ≤ cb.mBRegionSize)
    let bRead := cnt
    let b ← cb.mBRegionPointer
    let out ← cb.copyOut b bRead
    let cnt ← checkedSub cnt bRead
    some (out, bRead, cnt)
  else some ([], 0, cnt)

def peek (cb : CircularBuffer) (bytes : Nat) : Option (Option (List UInt8)) :=
  if cb.mARegionSize + cb.mBRegionSize < bytes then some none
  else do
    let (outA, _, cnt) ← copyA cb bytes
    let (outB, _, cnt) ← copyB cb cnt
    guard (cnt = 0)
    some (some (outA ++ outB))

/-- `mARegionSize -= n ; mARegionPointer += n`. -/
def advanceA (cb : CircularBuffer) (n : Nat) : Option CircularBuffer := do
  let size ← checkedSub cb.mARegionSize n
  some { cb with mARegionSize := size, mARegionPointer := cb.mARegionPointer + n }

/-- `mBRegionSize -= n ; mBRegionPointer += n`, which is not done for nothing. -/
def advanceB (cb : CircularBuffer) (n : Nat) : Option CircularBuffer :=
  if n > 0 then do
    let size ← checkedSub cb.mBRegionSize n
    let b ← cb.mBRegionPointer
    some { cb with mBRegionSize := size, mBRegionPointer := some (b + n) }
  else some cb

/-- The last block of `Read` and of `Remove`. -/
def collapse (cb : CircularBuffer) : Option CircularBuffer :=
  if cb.mARegionSize = 0 then
    if cb.mBRegionSize > 0 then do
      let b ← cb.mBRegionPointer
      let cb ← if b ≠ 0 then cb.moveWithin 0 b cb.mBRegionSize else some cb
      some { cb with
        mARegionPointer := 0
        mARegionSize := cb.mBRegionSize
        mBRegionPointer := none
        mBRegionSize := 0 }
    else
      some { cb with
        mBRegionPointer := none
        mBRegionSize := 0
        mARegionPointer := 0
        mARegionSize := 0 }
  else some cb

def read (cb : CircularBuffer) (bytes : Nat) : Option (Option (List UInt8) × CircularBuffer) :=
  if cb.mARegionSize + cb.mBRegionSize < bytes then some (none, cb)
  else do
    let (outA, aRead, cnt) ← copyA cb bytes
    let cb ← advanceA cb aRead
    let (outB, bRead, cnt) ← copyB cb cnt
    let cb ← advanceB cb bRead
    guard (cnt = 0)
    let cb ← collapse cb
    some (some (outA ++ outB), cb)

def remove (cb : CircularBuffer) (len : Nat) : Option CircularBuffer := do
  let aRemove :=
    if cb.mARegionSize > 0 then
      (if len > cb.mARegionSize then cb.mARegionSize else len)
    else 0
  let cb ← advanceA cb aRemove
  let cnt ← checkedSub len aRemove
  let bRemove :=
    if cnt > 0 ∧ cb.mBRegionSize > 0 then
      (if cnt > cb.mBRegionSize then cb.mBRegionSize else cnt)
    else 0
  let cb ← advanceB cb bRemove
  let _ ← checkedSub cnt bRemove
  collapse cb

/-- The class with its checks. -/
def object : Object CircularBuffer Op Answer where
  step cb
    | .write data n =>
        if n ≤ data.length then (write cb data n).map (fun r => (.ok r.1, r.2)) else none
    | .peek n => (peek cb n).map (fun out => (.bytes out, cb))
    | .read n => (read cb n).map (fun r => (.bytes r.1, r.2))
    | .remove k => (remove cb k).map (fun cb => (.done, cb))
    | .getFreeSpaceSize => (getFreeSpaceSize cb).map (fun r => (.size r.1, r.2))
    | .receive data => do
        let (free, cb) ← getFreeSpaceSize cb
        if data.length ≤ free then
          let cb ← cb.copyIn cb.getBuffer data
          some (.done, cb.commit data.length)
        else none

/-! ## Free space -/

variable {cb : CircularBuffer}

theorem checkedSub_of_le {a b : Nat} (h : b ≤ a) : checkedSub a b = some (a - b) := if_pos h

theorem getAFreeSpace_eq (hv : cb.Valid) : getAFreeSpace cb = some cb.getAFreeSpace := by
  have hin := hv.aInside
  have hbehind : cb.mARegionPointer ≤ cb.mBufferEnd := by omega
  have hsize : cb.mARegionSize ≤ cb.mBufferEnd - cb.mARegionPointer := by omega
  rw [getAFreeSpace, checkedSub_of_le hbehind, CircularBuffer.getAFreeSpace,
    sizeSub_of_le hbehind, sizeSub_of_le hsize]
  exact checkedSub_of_le hsize

theorem getSpaceBeforeA_eq (cb : CircularBuffer) :
    getSpaceBeforeA cb = some cb.getSpaceBeforeA := checkedSub_of_le (Nat.zero_le _)

theorem getBFreeSpace_eq (hv : cb.Valid) : getBFreeSpace cb = some cb.getBFreeSpace := by
  unfold getBFreeSpace CircularBuffer.getBFreeSpace
  cases hB : cb.mBRegionPointer with
  | none => rfl
  | some b =>
      obtain ⟨rfl, hle⟩ := hv.bBase b hB
      have hzero := Nat.zero_le cb.mARegionPointer
      simp only [checkedSub_of_le hzero, sizeSub_of_le hzero, Nat.sub_zero, sizeSub_of_le hle]
      exact checkedSub_of_le hle

theorem getFreeSpaceSize_eq (hv : cb.Valid) :
    getFreeSpaceSize cb = some cb.getFreeSpaceSize := by
  unfold getFreeSpaceSize CircularBuffer.getFreeSpaceSize
  by_cases hB : cb.mBRegionPointer.isSome
  · rw [if_pos hB, if_pos hB, getBFreeSpace_eq hv]
    rfl
  · rw [if_neg hB, if_neg hB, getAFreeSpace_eq hv, getSpaceBeforeA_eq]
    simp only [Option.bind_eq_bind, Option.bind_some]
    by_cases hlt : cb.getAFreeSpace < cb.getSpaceBeforeA
    · have hv' := valid_allocateB hv (Option.not_isSome_iff_eq_none.mp hB) hlt
      rw [if_pos hlt, if_pos hlt, getBFreeSpace_eq hv']
      rfl
    · rw [if_neg hlt, if_neg hlt]

/-! ## Writing -/

/-- There is no stored byte in the room at the write position. -/
theorem not_live_of_room (hv : cb.Valid) {i len : Nat} (hroom : len ≤ cb.room)
    (hlo : cb.getBuffer ≤ i) (hhi : i < cb.getBuffer + len) : ¬ cb.Live i := by
  have hin := hv.aInside
  unfold room at hroom
  unfold getBuffer at hlo hhi
  unfold Live
  cases hB : cb.mBRegionPointer with
  | none =>
      simp only [hB, hv.bNull hB, Option.getD_none] at *
      omega
  | some b =>
      obtain ⟨rfl, hle⟩ := hv.bBase b hB
      simp only [hB, Option.isSome_some, if_true, Option.getD_some] at *
      omega

theorem copyIn_of_room (hv : cb.Valid) {data : List UInt8} (hroom : data.length ≤ cb.room) :
    cb.copyIn cb.getBuffer data = some (cb.store data) := by
  have hin := hv.aInside
  have hinside : cb.getBuffer + data.length ≤ cb.mBufferEnd := by
    unfold room at hroom
    unfold getBuffer
    cases hB : cb.mBRegionPointer with
    | none =>
        simp only [hB, Option.isSome_none, Bool.false_eq_true, if_false] at *
        omega
    | some b =>
        obtain ⟨rfl, hle⟩ := hv.bBase b hB
        simp only [hB, Option.isSome_some, if_true] at *
        omega
  exact if_pos ⟨hinside, fun i hhi hlo => not_live_of_room hv hroom hlo hhi⟩

theorem writeB_eq (hv : cb.Valid) {b : Nat} (hB : cb.mBRegionPointer = some b)
    {data : List UInt8} {n : Nat} (hn : n ≤ data.length) :
    writeB cb data n = some (cb.writeB data n) := by
  have hsome : cb.mBRegionPointer.isSome = true := by
    rw [hB]
    rfl
  have hroom : cb.getBFreeSpace = cb.room := by
    rw [CircularBuffer.getBFreeSpace_eq hv hsome, room, if_pos hsome]
  have hbuffer : b + cb.mBRegionSize = cb.getBuffer := by
    unfold getBuffer
    rw [hB]
  unfold writeB CircularBuffer.writeB
  rw [getBFreeSpace_eq hv, hB, Option.getD_some]
  simp only [Option.bind_eq_bind, Option.bind_some]
  by_cases hlt : cb.getBFreeSpace < n
  · rw [if_pos hlt, if_pos hlt]
  · have hlen : (data.take n).length ≤ cb.room := by
      rw [List.length_take]
      omega
    rw [if_neg hlt, if_neg hlt, hbuffer, copyIn_of_room hv hlen]
    simp only [Option.bind_some, store, hB]

theorem write_eq (hv : cb.Valid) {data : List UInt8} {n : Nat} (hn : n ≤ data.length) :
    write cb data n = some (cb.write data n) := by
  unfold write CircularBuffer.write
  by_cases hB : cb.mBRegionPointer.isSome
  · obtain ⟨b, hb⟩ := Option.isSome_iff_exists.mp hB
    rw [if_pos hB, if_pos hB, writeB_eq hv hb hn]
  · have hnone := Option.not_isSome_iff_eq_none.mp hB
    rw [if_neg hB, if_neg hB, getAFreeSpace_eq hv, getSpaceBeforeA_eq]
    simp only [Option.bind_eq_bind, Option.bind_some]
    by_cases hlt : cb.getAFreeSpace < cb.getSpaceBeforeA
    · have hv' := valid_allocateB hv hnone hlt
      rw [if_pos hlt, if_pos hlt, writeB_eq hv' rfl hn]
    · rw [if_neg hlt, if_neg hlt]
      by_cases hfull : cb.getAFreeSpace < n
      · rw [if_pos hfull, if_pos hfull]
      · have hroom : cb.getAFreeSpace = cb.room := by
          rw [CircularBuffer.getAFreeSpace_eq hv, room, if_neg hB]
        have hbuffer : cb.mARegionPointer + cb.mARegionSize = cb.getBuffer := by
          unfold getBuffer
          rw [hnone]
        have hlen : (data.take n).length ≤ cb.room := by
          rw [List.length_take]
          omega
        rw [if_neg hfull, if_neg hfull, hbuffer, copyIn_of_room hv hlen]
        rfl

/-! ## Copying out -/

theorem copyA_eq (hv : cb.Valid) (cnt : Nat) {a : Nat}
    (ha : (if cb.mARegionSize > 0 then
      (if cnt > cb.mARegionSize then cb.mARegionSize else cnt) else 0) = a) :
    copyA cb cnt = some (slice cb.mBuffer cb.mARegionPointer a, a, cnt - a) := by
  have hin := hv.aInside
  subst ha
  unfold copyA
  by_cases hA : cb.mARegionSize > 0
  · rw [if_pos hA, if_pos hA]
    generalize hread : (if cnt > cb.mARegionSize then cb.mARegionSize else cnt) = aRead
    have hle : aRead ≤ cb.mARegionSize ∧ aRead ≤ cnt := by
      rw [← hread]
      split <;> omega
    have hinside : cb.mARegionPointer + aRead ≤ cb.mBufferEnd := by omega
    simp only [copyOut, if_pos hinside, checkedSub_of_le hle.2, Option.bind_eq_bind,
      Option.bind_some]
  · rw [if_neg hA, if_neg hA]
    rfl

/-- B is read where A has been read to its end, or not at all. -/
theorem copyB_eq (hin : ∀ b, cb.mBRegionPointer = some b → b + cb.mBRegionSize ≤ cb.mBufferEnd)
    (hnull : cb.mBRegionPointer = none → cb.mBRegionSize = 0) {cnt : Nat}
    (hcnt : cnt ≤ cb.mBRegionSize) :
    copyB cb cnt = some (slice cb.mBuffer (cb.mBRegionPointer.getD 0) cnt, cnt, 0) := by
  unfold copyB
  by_cases hpos : cnt > 0
  · cases hB : cb.mBRegionPointer with
    | none =>
        have hzero := hnull hB
        omega
    | some b =>
        have hinside := hin b hB
        have hsrc : b + cnt ≤ cb.mBufferEnd := by omega
        have hsize : cb.mBRegionSize > 0 := by omega
        have hguard : guard (cnt ≤ cb.mBRegionSize) = some () :=
          (Option.guard_eq_some' ()).mpr hcnt
        rw [if_pos ⟨hpos, hsize⟩, hguard]
        simp only [copyOut, if_pos hsrc, checkedSub_of_le (Nat.le_refl cnt), Nat.sub_self,
          Option.bind_eq_bind, Option.bind_some, Option.getD_some]
  · obtain rfl : cnt = 0 := Nat.eq_zero_of_not_pos hpos
    rw [if_neg (fun h => hpos h.1)]
    rfl

theorem peek_eq (hv : cb.Valid) (n : Nat) : peek cb n = some (cb.peek n) := by
  unfold peek CircularBuffer.peek
  by_cases hlt : cb.mARegionSize + cb.mBRegionSize < n
  · rw [if_pos hlt, if_pos hlt]
  · obtain ⟨a, b, ha, hb, hale, hble, -, rfl⟩ := split_request (Nat.le_of_not_lt hlt)
    have hrest : a + b - a = b := Nat.add_sub_cancel_left ..
    rw [hrest] at hb
    rw [if_neg hlt, if_neg hlt, copyA_eq hv (a + b) ha]
    simp only [ha, hb, hrest, Option.bind_eq_bind, Option.bind_some,
      copyB_eq hv.bInside hv.bNull hble]
    rfl

/-! ## Taking off the front -/

theorem advanceA_eq {a : Nat} (ha : a ≤ cb.mARegionSize) :
    advanceA cb a = some (cb.advance a 0) := by
  have hmap : cb.mBRegionPointer.map (· + 0) = cb.mBRegionPointer := Option.map_id'
  simp only [advanceA, checkedSub_of_le ha, advance, hmap, Nat.sub_zero, Option.bind_eq_bind,
    Option.bind_some]

theorem advanceB_eq (hnull : cb.mBRegionPointer = none → cb.mBRegionSize = 0) (a : Nat) {b : Nat}
    (hb : b ≤ cb.mBRegionSize) : advanceB (cb.advance a 0) b = some (cb.advance a b) := by
  have hsize : (cb.advance a 0).mBRegionSize = cb.mBRegionSize := Nat.sub_zero _
  unfold advanceB
  by_cases hpos : b > 0
  · cases hB : cb.mBRegionPointer with
    | none =>
        have hzero := hnull hB
        omega
    | some p =>
        have hpointer : (cb.advance a 0).mBRegionPointer = some p := by
          rw [advance, hB]
          rfl
        rw [if_pos hpos, hsize, checkedSub_of_le hb, hpointer]
        simp only [Option.bind_eq_bind, Option.bind_some, advance, hB, Option.map_some]
  · obtain rfl : b = 0 := Nat.eq_zero_of_not_pos hpos
    rw [if_neg hpos]

/-- Of the shrunken buffer the last block needs that B is inside the array: A
    is empty, so B holds every stored byte there is. -/
theorem collapse_eq (hnull : cb.mBRegionPointer = none → cb.mBRegionSize = 0)
    (hin : ∀ b, cb.mBRegionPointer = some b → b + cb.mBRegionSize ≤ cb.mBufferEnd) :
    collapse cb = some cb.collapse := by
  unfold collapse CircularBuffer.collapse
  by_cases hA : cb.mARegionSize = 0
  · rw [if_pos hA, if_pos hA]
    by_cases hsize : cb.mBRegionSize > 0
    · rw [if_pos hsize, if_pos hsize]
      cases hB : cb.mBRegionPointer with
      | none =>
          have hzero := hnull hB
          omega
      | some b =>
          have hinside := hin b hB
          simp only [Option.bind_eq_bind, Option.bind_some]
          by_cases hb : b = 0
          · subst hb
            rfl
          · have hmoves : ∀ i < 0 + cb.mBRegionSize, 0 ≤ i → cb.Live i →
                b ≤ i ∧ i < b + cb.mBRegionSize := by
              intro i _ _ hlive
              rw [Live, hB, hA, Option.getD_some] at hlive
              omega
            have hdst : 0 + cb.mBRegionSize ≤ cb.mBufferEnd := by omega
            have hb' : some b ≠ some 0 := fun h => hb (Option.some.inj h)
            rw [if_pos hb, moveWithin, if_pos ⟨hdst, hinside, hmoves⟩, if_pos hb']
            rfl
    · rw [if_neg hsize, if_neg hsize]
  · rw [if_neg hA, if_neg hA]

/-- What is left of B when some of it has been dropped. -/
theorem advance_bounds (hv : cb.Valid) (a : Nat) {b : Nat} (hb : b ≤ cb.mBRegionSize) :
    ((cb.advance a b).mBRegionPointer = none → (cb.advance a b).mBRegionSize = 0) ∧
      ∀ p, (cb.advance a b).mBRegionPointer = some p →
        p + (cb.advance a b).mBRegionSize ≤ (cb.advance a b).mBufferEnd := by
  constructor
  · intro hnone
    have hzero := hv.bNull (Option.map_eq_none_iff.mp hnone)
    show cb.mBRegionSize - b = 0
    omega
  · intro p hp
    obtain ⟨q, hq, rfl⟩ := Option.map_eq_some_iff.mp hp
    have hinside := hv.bInside q hq
    show q + b + (cb.mBRegionSize - b) ≤ cb.mBufferEnd
    omega

theorem collapse_advance (hv : cb.Valid) (a : Nat) {b : Nat} (hb : b ≤ cb.mBRegionSize) :
    collapse (cb.advance a b) = some (cb.advance a b).collapse :=
  collapse_eq (advance_bounds hv a hb).1 (advance_bounds hv a hb).2

theorem read_eq (hv : cb.Valid) (n : Nat) :
    read cb n = some (match cb.read n with
      | none => (none, cb)
      | some (out, cb') => (some out, cb')) := by
  unfold read CircularBuffer.read
  by_cases hlt : cb.mARegionSize + cb.mBRegionSize < n
  · rw [if_pos hlt, if_pos hlt]
  · obtain ⟨a, b, ha, hb, hale, hble, -, rfl⟩ := split_request (Nat.le_of_not_lt hlt)
    have hrest : a + b - a = b := Nat.add_sub_cancel_left ..
    rw [hrest] at hb
    -- B is read after A has been shrunken, and is not moved by that
    have hbounds := advance_bounds hv a (Nat.zero_le cb.mBRegionSize)
    have hble' : b ≤ (cb.advance a 0).mBRegionSize := hble
    have hsource : slice (cb.advance a 0).mBuffer ((cb.advance a 0).mBRegionPointer.getD 0) b
        = slice cb.mBuffer (cb.mBRegionPointer.getD 0) b := by
      have hmap : cb.mBRegionPointer.map (· + 0) = cb.mBRegionPointer := Option.map_id'
      rw [advance, hmap]
    rw [if_neg hlt, if_neg hlt, copyA_eq hv (a + b) ha]
    simp only [ha, hb, hrest, Option.bind_eq_bind, Option.bind_some, advanceA_eq hale,
      copyB_eq hbounds.2 hbounds.1 hble', advanceB_eq hv.bNull a hble, collapse_advance hv a hble,
      hsource]
    rfl

theorem remove_eq (hv : cb.Valid) (n : Nat) : remove cb n = some (cb.remove n) := by
  obtain ⟨a, b, ha, hb, hale, hble, -, hsum⟩ := clip_request cb n
  have hcnt : a ≤ n ∧ b ≤ n - a := by omega
  have hsize : (cb.advance a 0).mBRegionSize = cb.mBRegionSize := Nat.sub_zero _
  unfold remove CircularBuffer.remove
  simp only [ha, hb, advanceA_eq hale, checkedSub_of_le hcnt.1, hsize, advanceB_eq hv.bNull a hble,
    checkedSub_of_le hcnt.2, collapse_advance hv a hble, Option.bind_eq_bind, Option.bind_some]

/-! ## Every operation -/

/-- No check fails in a valid buffer. -/
theorem step_eq (hv : cb.Valid) (op : Op) :
    object.step cb op = CircularBuffer.object.step cb op := by
  cases op with
  | write data n =>
      simp only [object, CircularBuffer.object]
      by_cases hn : n ≤ data.length
      · rw [if_pos hn, if_pos hn, write_eq hv hn]
        rfl
      · rw [if_neg hn, if_neg hn]
  | peek n =>
      simp only [object, CircularBuffer.object, peek_eq hv]
      rfl
  | read n =>
      simp only [object, CircularBuffer.object, read_eq hv]
      cases cb.read n with
      | none => rfl
      | some r => rfl
  | remove k =>
      simp only [object, CircularBuffer.object, remove_eq hv]
      rfl
  | getFreeSpaceSize =>
      simp only [object, CircularBuffer.object, getFreeSpaceSize_eq hv]
      rfl
  | receive data =>
      obtain ⟨hv', -, -, hroom⟩ := getFreeSpaceSize_spec hv
      simp only [object, CircularBuffer.object, getFreeSpaceSize_eq hv, Option.bind_eq_bind,
        Option.bind_some]
      by_cases hfit : data.length ≤ cb.getFreeSpaceSize.1
      · rw [if_pos hfit, if_pos hfit, copyIn_of_room hv' (hroom ▸ hfit)]
        rfl
      · rw [if_neg hfit, if_neg hfit]

end Checked

/-- The layout of the regions. -/
structure Layout (capacity : Nat) (cb : CircularBuffer) : Prop where
  array : cb.mBufferEnd = capacity
  aInside : cb.mARegionPointer + cb.mARegionSize ≤ cb.mBufferEnd
  bRegion : (cb.mBRegionPointer = none ∧ cb.mBRegionSize = 0) ∨
    (cb.mBRegionPointer = some 0 ∧ 0 + cb.mBRegionSize ≤ cb.mARegionPointer)
  aEmpty : cb.mARegionSize = 0 → cb.mARegionPointer = 0 ∧ cb.mBRegionPointer = none

/-- **The layout is kept.**  In every state of a buffer the regions are laid
    out as they should be, and every operation that is made on it passes all
    of its checks: no difference wraps, no copy leaves the array or meets a
    stored byte, and no assertion fails. -/
theorem layout_kept (capacity : Nat) (cb : CircularBuffer) (hr : Reachable capacity cb) :
    Layout capacity cb ∧ ∀ op, Checked.object.step cb op = object.step cb op := by
  have hv := hr.valid
  refine ⟨⟨hr.mBufferEnd, hv.aInside, ?_, hv.aEmpty⟩, fun op => Checked.step_eq hv op⟩
  cases hB : cb.mBRegionPointer with
  | none => exact .inl ⟨rfl, hv.bNull hB⟩
  | some b =>
      obtain ⟨rfl, hle⟩ := hv.bBase b hB
      rw [Nat.zero_add]
      exact .inr ⟨rfl, hle⟩

/-- Both regions in use, and a read that empties A and moves B down. -/
theorem layout_kept_moved :
    ∃ cb, Reachable 4 cb ∧ cb.mBRegionPointer = some 0 ∧ cb.mBRegionSize = 2 ∧
      (Checked.object.step cb (.read 2)).isSome = true := by
  have hr : Reachable 4 (((((new 4 (fun _ => 0)).write [1, 2, 3, 4] 4).2.remove 3).write
      [5, 6] 2).2) :=
    ⟨fun _ => 0, [.write [1, 2, 3, 4] 4, .remove 3, .write [5, 6] 2], _, rfl⟩
  refine ⟨_, hr, rfl, rfl, ?_⟩
  rw [(layout_kept 4 _ hr).2]
  rfl

end CircularBuffer
end EasyGameServer
