/-
  EasyGameServer.CircularBuffer.Valid

  The representation invariant of the ring buffer and one spec lemma for each
  operation, in terms of `contents`: the A region's bytes, then the B region's.

  `Valid` remembers, besides the layout, what the switch to B has to remember
  (`aEnd`): B is only allocated when the free space after A is smaller than
  the space before it, so from then on the end of A lies beyond the middle of
  the array.  The end of A does not move while B exists, which makes the field
  an invariant and the half-capacity bound its consequence.
-/

import EasyGameServer.CircularBuffer.Basic

namespace EasyGameServer

open Lib

namespace CircularBuffer

/-- The stored bytes in FIFO order. -/
def contents (cb : CircularBuffer) : List UInt8 :=
  slice cb.mBuffer cb.mARegionPointer cb.mARegionSize
    ++ slice cb.mBuffer (cb.mBRegionPointer.getD 0) cb.mBRegionSize

/-- The representation invariant. -/
structure Valid (cb : CircularBuffer) : Prop where
  aInside : cb.mARegionPointer + cb.mARegionSize ≤ cb.mBufferEnd
  bNull : cb.mBRegionPointer = none → cb.mBRegionSize = 0
  bBase : ∀ b, cb.mBRegionPointer = some b → b = 0 ∧ cb.mBRegionSize ≤ cb.mARegionPointer
  aEmpty : cb.mARegionSize = 0 → cb.mARegionPointer = 0 ∧ cb.mBRegionPointer = none
  aEnd : cb.mBRegionPointer.isSome →
    cb.mBufferEnd < 2 * (cb.mARegionPointer + cb.mARegionSize)

/-- Room at the write position, once the region to write to is chosen. -/
def room (cb : CircularBuffer) : Nat :=
  if cb.mBRegionPointer.isSome then cb.mARegionPointer - cb.mBRegionSize
  else cb.mBufferEnd - (cb.mARegionPointer + cb.mARegionSize)

@[simp] theorem length_contents (cb : CircularBuffer) :
    cb.contents.length = cb.getStoredSize := by
  simp [contents, getStoredSize]

theorem valid_new (capacity : Nat) (mem : Nat → UInt8) : (new capacity mem).Valid where
  aInside := Nat.zero_le _
  bNull := fun _ => rfl
  bBase := nofun
  aEmpty := fun _ => ⟨rfl, rfl⟩
  aEnd := nofun

@[simp] theorem contents_new (capacity : Nat) (mem : Nat → UInt8) :
    (new capacity mem).contents = [] := rfl

/-- No more is stored than the array holds. -/
theorem Valid.getStoredSize_le {cb : CircularBuffer} (h : cb.Valid) :
    cb.getStoredSize ≤ cb.mBufferEnd := by
  have hin := h.aInside
  unfold getStoredSize
  cases hb : cb.mBRegionPointer with
  | none =>
      rw [h.bNull hb]
      omega
  | some b =>
      have hle := (h.bBase b hb).2
      omega

/-- The B region lies inside the array, as it lies before A. -/
theorem Valid.bInside {cb : CircularBuffer} (h : cb.Valid) :
    ∀ b, cb.mBRegionPointer = some b → b + cb.mBRegionSize ≤ cb.mBufferEnd := by
  intro b hB
  have hin := h.aInside
  obtain ⟨rfl, hle⟩ := h.bBase b hB
  omega

/-! ## Free space -/

theorem getAFreeSpace_eq {cb : CircularBuffer} (h : cb.Valid) :
    cb.getAFreeSpace = cb.mBufferEnd - (cb.mARegionPointer + cb.mARegionSize) := by
  have hin := h.aInside
  rw [getAFreeSpace, sizeSub_of_le (a := cb.mBufferEnd) (by omega),
    sizeSub_of_le (by omega)]
  omega

theorem getBFreeSpace_eq {cb : CircularBuffer} (h : cb.Valid)
    (hB : cb.mBRegionPointer.isSome) :
    cb.getBFreeSpace = cb.mARegionPointer - cb.mBRegionSize := by
  obtain ⟨b, hb⟩ := Option.isSome_iff_exists.mp hB
  obtain ⟨rfl, hle⟩ := h.bBase b hb
  simp only [getBFreeSpace, hb]
  rw [sizeSub_of_le (Nat.zero_le _), Nat.sub_zero, sizeSub_of_le hle]

/-- Switching to B is sound exactly where the code does it. -/
theorem valid_allocateB {cb : CircularBuffer} (h : cb.Valid)
    (hnone : cb.mBRegionPointer = none)
    (hlt : cb.getAFreeSpace < cb.getSpaceBeforeA) : cb.allocateB.Valid := by
  rw [getAFreeSpace_eq h, getSpaceBeforeA] at hlt
  have hin := h.aInside
  constructor
  · exact hin
  · exact fun hc => nomatch hc
  · rintro b ⟨⟩
    exact ⟨rfl, by show cb.mBRegionSize ≤ _; rw [h.bNull hnone]; exact Nat.zero_le _⟩
  · intro h0
    have := (h.aEmpty h0).1
    omega
  · intro _
    show cb.mBufferEnd < 2 * (cb.mARegionPointer + cb.mARegionSize)
    omega

theorem contents_allocateB {cb : CircularBuffer} (hnone : cb.mBRegionPointer = none) :
    cb.allocateB.contents = cb.contents := by
  simp [contents, allocateB, hnone]

/-- `GetFreeSpaceSize` keeps the invariant and the contents, and answers the
    room at the write position it has settled on. -/
theorem getFreeSpaceSize_spec {cb : CircularBuffer} (h : cb.Valid) :
    cb.getFreeSpaceSize.2.Valid ∧
      cb.getFreeSpaceSize.2.contents = cb.contents ∧
      cb.getFreeSpaceSize.2.mBufferEnd = cb.mBufferEnd ∧
      cb.getFreeSpaceSize.1 = cb.getFreeSpaceSize.2.room := by
  unfold getFreeSpaceSize
  by_cases hB : cb.mBRegionPointer.isSome
  · rw [if_pos hB]
    exact ⟨h, rfl, rfl, by rw [getBFreeSpace_eq h hB, room, if_pos hB]⟩
  · have hnone : cb.mBRegionPointer = none := by simpa using hB
    rw [if_neg hB]
    by_cases hlt : cb.getAFreeSpace < cb.getSpaceBeforeA
    · rw [if_pos hlt]
      have hv := valid_allocateB h hnone hlt
      refine ⟨hv, contents_allocateB hnone, rfl, ?_⟩
      rw [getBFreeSpace_eq hv rfl]
      rfl
    · rw [if_neg hlt]
      exact ⟨h, rfl, rfl, by rw [getAFreeSpace_eq h, room, if_neg hB]⟩

/-! ## Appending at the write position -/

/-- Storing no more than the room at the write position and committing it
    appends exactly the stored bytes. -/
theorem store_commit_spec {cb : CircularBuffer} (h : cb.Valid) (data : List UInt8)
    (hfit : data.length ≤ cb.room) :
    ((cb.store data).commit data.length).Valid ∧
      ((cb.store data).commit data.length).contents = cb.contents ++ data ∧
      ((cb.store data).commit data.length).mBufferEnd = cb.mBufferEnd := by
  have hin := h.aInside
  cases hB : cb.mBRegionPointer with
  | none =>
      have h0 := h.bNull hB
      simp only [room, hB, Option.isSome_none, Bool.false_eq_true, if_false] at hfit
      refine ⟨?_, ?_, ?_⟩
      · constructor
        · show (CircularBuffer.commit _ _).mARegionPointer
            + (CircularBuffer.commit _ _).mARegionSize ≤ _
          simp only [commit, store, hB, Option.isSome_none, Bool.false_eq_true, if_false]
          omega
        all_goals simp only [commit, store, hB, Option.isSome_none, Bool.false_eq_true, if_false]
        · exact fun _ => h0
        · exact fun _ hc => nomatch hc
        · intro hz
          exact ⟨(h.aEmpty (by omega)).1, trivial⟩
        · exact fun hc => nomatch hc
      · simp only [contents, commit, store, getBuffer, hB, Option.isSome_none,
          Bool.false_eq_true, if_false, Option.getD_none, h0, slice_zero, List.append_nil]
        exact slice_memcpy_append ..
      · simp [commit, store, hB]
  | some b =>
      obtain ⟨rfl, hle⟩ := h.bBase b hB
      simp only [room, hB, Option.isSome_some, if_true] at hfit
      have hend := h.aEnd (by rw [hB]; rfl)
      refine ⟨?_, ?_, ?_⟩
      · constructor
        all_goals simp only [commit, store, hB, Option.isSome_some, if_true]
        · exact hin
        · exact fun hc => nomatch hc
        · rintro b ⟨⟩
          exact ⟨rfl, by omega⟩
        · intro hz
          exact absurd (h.aEmpty hz).2 (by rw [hB]; exact nofun)
        · exact fun _ => hend
      · simp only [contents, commit, store, getBuffer, hB, Option.isSome_some, if_true,
          Option.getD_some]
        rw [slice_memcpy_append, slice_memcpy_of_disjoint _ _ _ _ _ (by omega),
          List.append_assoc]
      · simp [commit, store, hB]

/-! ## Write -/

/-- `Write` is the receive sequence with the copy inside: it settles on a
    region as `GetFreeSpaceSize` does, and stores and commits if that has the
    room. -/
theorem write_eq (cb : CircularBuffer) (data : List UInt8) (n : Nat) :
    cb.write data n =
      if cb.getFreeSpaceSize.1 < n then (false, cb.getFreeSpaceSize.2)
      else (true, (cb.getFreeSpaceSize.2.store (data.take n)).commit n) := by
  unfold write getFreeSpaceSize
  by_cases hB : cb.mBRegionPointer.isSome
  · simp only [if_pos hB, writeB]
    obtain ⟨b, hb⟩ := Option.isSome_iff_exists.mp hB
    simp [store, commit, getBuffer, hb]
  · have hnone : cb.mBRegionPointer = none := by simpa using hB
    simp only [if_neg hB]
    by_cases hlt : cb.getAFreeSpace < cb.getSpaceBeforeA
    · simp [if_pos hlt, writeB, store, commit, getBuffer, allocateB]
    · simp [if_neg hlt, store, commit, getBuffer, hnone]

/-- `Write` appends its bytes or leaves the contents alone, and does the
    former exactly when they fit. -/
theorem write_spec {cb : CircularBuffer} (h : cb.Valid) (data : List UInt8) (n : Nat)
    (hn : n ≤ data.length) :
    (cb.write data n).2.Valid ∧
      (cb.write data n).2.contents
        = (if (cb.write data n).1 then cb.contents ++ data.take n else cb.contents) ∧
      (cb.write data n).2.mBufferEnd = cb.mBufferEnd ∧
      ((cb.write data n).1 = true ↔ n ≤ cb.getFreeSpaceSize.1) := by
  obtain ⟨hv, hc, he, hroom⟩ := getFreeSpaceSize_spec h
  rw [write_eq]
  by_cases hlt : cb.getFreeSpaceSize.1 < n
  · rw [if_pos hlt]
    refine ⟨hv, by simpa using hc, he, ?_⟩
    simp only [Bool.false_eq_true, false_iff]
    omega
  · rw [if_neg hlt]
    have hlen : (data.take n).length = n := by rw [List.length_take]; omega
    have happ := store_commit_spec hv (data.take n) (by omega)
    rw [hlen] at happ
    refine ⟨happ.1, ?_, happ.2.2.trans he, ?_⟩
    · rw [if_pos rfl, happ.2.1, hc]
    · simp only [true_iff]
      omega

/-! ## Removing from the front -/

/-- The collapse step restores the invariant.  The regions may be anywhere
    with B before A; only an A region that still holds bytes needs B at the
    start of the array. -/
theorem collapse_spec (cb : CircularBuffer)
    (hin : cb.mARegionPointer + cb.mARegionSize ≤ cb.mBufferEnd)
    (hnull : cb.mBRegionPointer = none → cb.mBRegionSize = 0)
    (hbase : ∀ b, cb.mBRegionPointer = some b →
      b + cb.mBRegionSize ≤ cb.mARegionPointer ∧ (0 < cb.mARegionSize → b = 0))
    (hend : cb.mBRegionPointer.isSome → 0 < cb.mARegionSize →
      cb.mBufferEnd < 2 * (cb.mARegionPointer + cb.mARegionSize)) :
    cb.collapse.Valid ∧ cb.collapse.contents = cb.contents ∧
      cb.collapse.mBufferEnd = cb.mBufferEnd := by
  unfold collapse
  by_cases hA : cb.mARegionSize = 0
  · rw [if_pos hA]
    by_cases hB : cb.mBRegionSize > 0
    · rw [if_pos hB]
      obtain ⟨b, hb⟩ : ∃ b, cb.mBRegionPointer = some b := by
        cases hbp : cb.mBRegionPointer with
        | none => exact absurd (hnull hbp) (by omega)
        | some b => exact ⟨b, rfl⟩
      have hle := (hbase b hb).1
      refine ⟨⟨?_, fun _ => rfl, nofun, ?_, nofun⟩, ?_, rfl⟩
      · show 0 + cb.mBRegionSize ≤ cb.mBufferEnd
        omega
      · intro hz
        exact absurd hz (by show cb.mBRegionSize ≠ 0; omega)
      · simp only [contents, hA, slice_zero, List.nil_append, List.append_nil, hb,
          Option.getD_some]
        by_cases hb0 : b = 0
        · rw [if_neg (by simpa using hb0), hb0]
        · rw [if_pos (by simpa using hb0), slice_memmove_self]
    · rw [if_neg hB]
      refine ⟨⟨Nat.zero_le _, fun _ => rfl, nofun, fun _ => ⟨rfl, rfl⟩, nofun⟩, ?_, rfl⟩
      have hB0 : cb.mBRegionSize = 0 := by omega
      simp [contents, hA, hB0]
  · rw [if_neg hA]
    refine ⟨⟨hin, hnull, ?_, fun hz => absurd hz hA, fun hs => hend hs (by omega)⟩, rfl, rfl⟩
    intro b hb
    obtain ⟨hle, h0⟩ := hbase b hb
    exact ⟨h0 (by omega), by omega⟩

/-- Dropping `a` bytes of A and then `b` of B (touching B only once A is used
    up) and collapsing drops the first `a + b` stored bytes. -/
theorem advance_collapse_spec {cb : CircularBuffer} (h : cb.Valid) {a b : Nat}
    (ha : a ≤ cb.mARegionSize) (hb : b ≤ cb.mBRegionSize)
    (hab : 0 < b → a = cb.mARegionSize) :
    (cb.advance a b).collapse.Valid ∧
      (cb.advance a b).collapse.contents = cb.contents.drop (a + b) ∧
      (cb.advance a b).collapse.mBufferEnd = cb.mBufferEnd := by
  have hin := h.aInside
  have hspec := collapse_spec (cb.advance a b)
    (by show cb.mARegionPointer + a + (cb.mARegionSize - a) ≤ cb.mBufferEnd; omega)
    (by
      intro hnone
      have hn : cb.mBRegionPointer = none := by simpa [advance] using hnone
      show cb.mBRegionSize - b = 0
      rw [h.bNull hn, Nat.zero_sub])
    (by
      intro p hp
      obtain ⟨q, hq, rfl⟩ : ∃ q, cb.mBRegionPointer = some q ∧ q + b = p := by
        simpa [advance] using hp
      obtain ⟨rfl, hle⟩ := h.bBase q hq
      refine ⟨?_, ?_⟩
      · show 0 + b + (cb.mBRegionSize - b) ≤ cb.mARegionPointer + a
        omega
      · intro hpos
        have hpos' : 0 < cb.mARegionSize - a := hpos
        omega)
    (by
      intro hs _
      have hend := h.aEnd (by simpa [advance] using hs)
      show cb.mBufferEnd < 2 * (cb.mARegionPointer + a + (cb.mARegionSize - a))
      omega)
  refine ⟨hspec.1, ?_, hspec.2.2⟩
  rw [hspec.2.1]
  -- the slices of the two shrunken regions, against `drop` on the concatenation
  have hBp : (cb.mBRegionPointer.map (· + b)).getD 0
      = cb.mBRegionPointer.getD 0 + (if cb.mBRegionPointer.isSome then b else 0) := by
    cases cb.mBRegionPointer <;> simp
  have hAslice := drop_slice cb.mBuffer cb.mARegionPointer cb.mARegionSize a ha
  have hBslice := drop_slice cb.mBuffer (cb.mBRegionPointer.getD 0) cb.mBRegionSize b hb
  show slice cb.mBuffer (cb.mARegionPointer + a) (cb.mARegionSize - a)
      ++ slice cb.mBuffer ((cb.mBRegionPointer.map (· + b)).getD 0) (cb.mBRegionSize - b) = _
  have hBeq : slice cb.mBuffer ((cb.mBRegionPointer.map (· + b)).getD 0) (cb.mBRegionSize - b)
      = (slice cb.mBuffer (cb.mBRegionPointer.getD 0) cb.mBRegionSize).drop b := by
    rw [hBslice, hBp]
    cases hB : cb.mBRegionPointer with
    | none => simp [h.bNull hB]
    | some q => simp
  rw [← hAslice, hBeq, contents, List.drop_append, length_slice]
  by_cases hb0 : b = 0
  · have : a - cb.mARegionSize = 0 := by omega
    simp [hb0, this]
  · have ha' : a = cb.mARegionSize := hab (by omega)
    subst ha'
    have h1 : (slice cb.mBuffer cb.mARegionPointer cb.mARegionSize).drop cb.mARegionSize = [] :=
      List.drop_of_length_le (by simp)
    have h2 : (slice cb.mBuffer cb.mARegionPointer cb.mARegionSize).drop (cb.mARegionSize + b)
        = [] := List.drop_of_length_le (by simp)
    rw [h1, h2, Nat.add_sub_cancel_left]

/-- How `Read` and `Peek` split a request over the two regions. -/
theorem split_request {cb : CircularBuffer} {n : Nat} (hn : n ≤ cb.getStoredSize) :
    ∃ a b,
      (if cb.mARegionSize > 0 then
        (if n > cb.mARegionSize then cb.mARegionSize else n) else 0) = a ∧
      (if n - a > 0 ∧ cb.mBRegionSize > 0 then n - a else 0) = b ∧
      a ≤ cb.mARegionSize ∧ b ≤ cb.mBRegionSize ∧ (0 < b → a = cb.mARegionSize) ∧
      a + b = n := by
  unfold getStoredSize at hn
  refine ⟨_, _, rfl, rfl, ?_⟩
  split
  · split <;> split <;> omega
  · split <;> omega

theorem take_contents (cb : CircularBuffer) {a b : Nat} (ha : a ≤ cb.mARegionSize)
    (hb : b ≤ cb.mBRegionSize) (hab : 0 < b → a = cb.mARegionSize) :
    slice cb.mBuffer cb.mARegionPointer a
        ++ slice cb.mBuffer (cb.mBRegionPointer.getD 0) b
      = cb.contents.take (a + b) := by
  rw [contents, List.take_append, length_slice]
  by_cases hb0 : b = 0
  · have : a - cb.mARegionSize = 0 := by omega
    simp [hb0, this, take_slice _ _ _ _ ha]
  · have ha' : a = cb.mARegionSize := hab (by omega)
    subst ha'
    rw [Nat.add_sub_cancel_left, take_slice _ _ _ _ hb, List.take_of_length_le (by simp)]

/-- `Peek` answers the first bytes, or refuses when there are too few. -/
theorem peek_spec (cb : CircularBuffer) (n : Nat) :
    cb.peek n = if n ≤ cb.getStoredSize then some (cb.contents.take n) else none := by
  unfold peek
  by_cases hn : n ≤ cb.getStoredSize
  · rw [if_pos hn, if_neg (by rw [getStoredSize] at hn; omega)]
    obtain ⟨a, b, ha, hb, hale, hble, hab, rfl⟩ := split_request hn
    simp only [ha, hb]
    rw [take_contents cb hale hble hab]
  · rw [if_neg hn, if_pos (by rw [getStoredSize] at hn; omega)]

/-- `Read` answers and removes the first bytes, or refuses when there are too
    few. -/
theorem read_spec {cb : CircularBuffer} (h : cb.Valid) {n : Nat}
    (hn : n ≤ cb.getStoredSize) :
    ∃ cb', cb.read n = some (cb.contents.take n, cb') ∧ cb'.Valid ∧
      cb'.contents = cb.contents.drop n ∧ cb'.mBufferEnd = cb.mBufferEnd := by
  obtain ⟨a, b, ha, hb, hale, hble, hab, rfl⟩ := split_request hn
  refine ⟨(cb.advance a b).collapse, ?_, advance_collapse_spec h hale hble hab⟩
  unfold read
  rw [if_neg (by rw [getStoredSize] at hn; omega)]
  simp only [ha, hb]
  rw [take_contents cb hale hble hab]

theorem read_none {cb : CircularBuffer} {n : Nat} (hn : cb.getStoredSize < n) :
    cb.read n = none := by
  unfold read
  exact if_pos hn

/-- How `Remove` splits its request, which may ask for more than there is. -/
theorem clip_request (cb : CircularBuffer) (n : Nat) :
    ∃ a b,
      (if cb.mARegionSize > 0 then
        (if n > cb.mARegionSize then cb.mARegionSize else n) else 0) = a ∧
      (if n - a > 0 ∧ cb.mBRegionSize > 0 then
        (if n - a > cb.mBRegionSize then cb.mBRegionSize else n - a) else 0) = b ∧
      a ≤ cb.mARegionSize ∧ b ≤ cb.mBRegionSize ∧ (0 < b → a = cb.mARegionSize) ∧
      a + b = min n cb.getStoredSize := by
  unfold getStoredSize
  refine ⟨_, _, rfl, rfl, ?_⟩
  split
  · split <;> split <;> try split
    all_goals omega
  · split <;> try split
    all_goals omega

/-- `Remove` drops the first bytes, all of them when asked for more than there
    are. -/
theorem remove_spec {cb : CircularBuffer} (h : cb.Valid) (n : Nat) :
    (cb.remove n).Valid ∧ (cb.remove n).contents = cb.contents.drop n ∧
      (cb.remove n).mBufferEnd = cb.mBufferEnd := by
  obtain ⟨a, b, ha, hb, hale, hble, hab, hsum⟩ := clip_request cb n
  unfold remove
  simp only [ha, hb]
  have hspec := advance_collapse_spec h hale hble hab
  refine ⟨hspec.1, ?_, hspec.2.2⟩
  rw [hspec.2.1, hsum]
  by_cases hle : n ≤ cb.getStoredSize
  · rw [Nat.min_eq_left hle]
  · have h1 : cb.contents.drop cb.getStoredSize = [] :=
      List.drop_of_length_le (by simp)
    have h2 : cb.contents.drop n = [] :=
      List.drop_of_length_le (by rw [length_contents]; omega)
    rw [Nat.min_eq_right (by omega), h1, h2]

/-- What `GetBufferStart` and `GetContiguiousBytes` delimit is the front of
    the contents. -/
theorem contiguous_spec {cb : CircularBuffer} (h : cb.Valid) :
    slice cb.mBuffer (cb.getBufferStart.getD 0) cb.getContiguousBytes
        = cb.contents.take cb.getContiguousBytes ∧
      cb.getContiguousBytes ≤ cb.getStoredSize := by
  unfold getBufferStart getContiguousBytes getStoredSize
  by_cases hA : cb.mARegionSize > 0
  · simp only [if_pos hA, Option.getD_some]
    refine ⟨?_, Nat.le_add_right _ _⟩
    rw [contents, List.take_left' (length_slice _ _ _)]
  · have hA0 : cb.mARegionSize = 0 := by omega
    have hB0 := h.bNull (h.aEmpty hA0).2
    simp [hA0, hB0]

/-! ## Half capacity -/

/-- What is stored and the free window `GetFreeSpaceSize` offers next make up
    at least half of the array. -/
theorem half_capacity {cb : CircularBuffer} (h : cb.Valid) :
    cb.mBufferEnd ≤ 2 * (cb.getStoredSize + cb.getFreeSpaceSize.1) := by
  have hin := h.aInside
  unfold getFreeSpaceSize getStoredSize
  by_cases hB : cb.mBRegionPointer.isSome
  · rw [if_pos hB]
    have hend := h.aEnd hB
    obtain ⟨b, hb⟩ := Option.isSome_iff_exists.mp hB
    have hle := (h.bBase b hb).2
    simp only [getBFreeSpace_eq h hB]
    omega
  · have hnone : cb.mBRegionPointer = none := by simpa using hB
    have h0 := h.bNull hnone
    rw [if_neg hB]
    by_cases hlt : cb.getAFreeSpace < cb.getSpaceBeforeA
    · rw [if_pos hlt]
      have hv := valid_allocateB h hnone hlt
      rw [getAFreeSpace_eq h, getSpaceBeforeA] at hlt
      rw [getBFreeSpace_eq hv rfl]
      show cb.mBufferEnd ≤ 2 * (cb.mARegionSize + cb.mBRegionSize
        + (cb.mARegionPointer - cb.mBRegionSize))
      omega
    · rw [if_neg hlt]
      rw [getAFreeSpace_eq h, getSpaceBeforeA] at hlt
      simp only [getAFreeSpace_eq h]
      omega

end CircularBuffer
end EasyGameServer
