/-
  EasyGameServer.ObjectPool

  The allocator of `ObjectPool.h`.  The free slots form a list whose links lie
  in the slots themselves; an empty list is refilled with a chunk of
  `ALLOC_COUNT` slots, which are linked one after the other.

  Memory is bytes, an address is a number below 2^32 (the projects are built
  for Win32) and 0 is `nullptr`.  What `new uint8_t[]` returns is an argument.
-/

import EasyGameServer.Lib.Intrusive

namespace EasyGameServer

open Lib

def sizeofPointer : Nat := 4

/-- The arguments of the template: the size of `TOBJECT`, which has to have
    room for a pointer, and `ALLOC_COUNT`. -/
structure PoolType where
  sizeofObject : Nat
  ALLOC_COUNT : Nat := 10
  sizeofPointer_le : sizeofPointer ≤ sizeofObject
  ALLOC_COUNT_pos : 1 ≤ ALLOC_COUNT

/-- The static members, and the memory their pointers lead into. -/
structure ObjectPool where
  mem : Nat → UInt8
  mFreeList : Nat
  mTotalAllocCount : Int32
  mCurrentUseCount : Int32

namespace ObjectPool

/-- The initial values of the static members. -/
def new (mem : Nat → UInt8) : ObjectPool where
  mem := mem
  mFreeList := 0
  mTotalAllocCount := 0
  mCurrentUseCount := 0

/-- So many iterations of the loop that links the slots of a chunk. -/
def linkSlots (T : PoolType) : Nat → (Nat → UInt8) → Nat → Nat → (Nat → UInt8) × Nat
  | 0, mem, _, ppCurr => (mem, ppCurr)
  | n + 1, mem, pNext, ppCurr =>
      let pNext := (pNext + T.sizeofObject) % 256 ^ sizeofPointer
      linkSlots T n (storePtr sizeofPointer mem ppCurr pNext) pNext pNext

/-- `operator new` on an empty free list, up to where it takes a slot. -/
def refill (T : PoolType) (chunk : Nat) (pool : ObjectPool) : ObjectPool :=
  let r := linkSlots T (T.ALLOC_COUNT - 1) pool.mem chunk chunk
  { pool with
    mem := storePtr sizeofPointer r.1 r.2 0
    mFreeList := chunk
    mTotalAllocCount := pool.mTotalAllocCount + Int32.ofNat T.ALLOC_COUNT }

/-- `operator new` from where it takes a slot. -/
def take (pool : ObjectPool) : Nat × ObjectPool :=
  let pAvailable := pool.mFreeList
  (pAvailable,
    { pool with
      mFreeList := loadPtr sizeofPointer pool.mem pAvailable
      mCurrentUseCount := pool.mCurrentUseCount + 1 })

def operatorNew (T : PoolType) (chunk : Nat) (pool : ObjectPool) : Nat × ObjectPool :=
  if pool.mFreeList = 0 then (pool.refill T chunk).take else pool.take

/-- `none` when the `CRASH_ASSERT` fails. -/
def operatorDelete (obj : Nat) (pool : ObjectPool) : Option ObjectPool :=
  if pool.mCurrentUseCount > 0 then
    some { pool with
      mem := storePtr sizeofPointer pool.mem obj pool.mFreeList
      mFreeList := obj
      mCurrentUseCount := pool.mCurrentUseCount - 1 }
  else none

end ObjectPool

/-! ## Slots -/

namespace PoolType

variable {T : PoolType} {chunks : List Nat} {chunk a : Nat}

/-- The bytes of a chunk. -/
def chunkSize (T : PoolType) : Nat := T.sizeofObject * T.ALLOC_COUNT

/-- The slots of these chunks. -/
def slots (T : PoolType) (chunks : List Nat) : List Nat :=
  chunks.flatMap (row T.sizeofObject T.ALLOC_COUNT)

/-- What the pool assumes of `new uint8_t[]`: room for all slots of a chunk (so
    that their bytes are a `size_t`), in memory that no earlier chunk has.  A
    call that throws instead leaves the pool as it is. -/
structure Fresh (T : PoolType) (chunks : List Nat) (chunk : Nat) : Prop where
  ne_zero : chunk ≠ 0
  inside : chunk + T.chunkSize ≤ 256 ^ sizeofPointer
  apart : ∀ c ∈ chunks, Apart T.chunkSize chunk c

/-- Chunks each of which was fresh when it was returned. -/
inductive Placed (T : PoolType) : List Nat → Prop
  | nil : Placed T []
  | cons {chunk : Nat} {chunks : List Nat} (hf : T.Fresh chunks chunk) (h : Placed T chunks) :
      Placed T (chunk :: chunks)

theorem sizeofObject_pos (T : PoolType) : 0 < T.sizeofObject :=
  Nat.lt_of_lt_of_le (by decide) T.sizeofPointer_le

theorem slots_cons (T : PoolType) (chunk : Nat) (chunks : List Nat) :
    T.slots (chunk :: chunks) = row T.sizeofObject T.ALLOC_COUNT chunk ++ T.slots chunks := rfl

theorem mem_slots (h : a ∈ T.slots chunks) :
    ∃ c ∈ chunks, c ≤ a ∧ a + T.sizeofObject ≤ c + T.chunkSize := by
  obtain ⟨c, hc, ha⟩ := List.mem_flatMap.mp h
  obtain ⟨hlo, hhi⟩ := row_bounds ha
  rw [Nat.mul_comm] at hhi
  exact ⟨c, hc, hlo, hhi⟩

/-- No slot reaches into a fresh chunk. -/
theorem Fresh.slot_outside (hf : T.Fresh chunks chunk) (ha : a ∈ T.slots chunks) :
    a + T.sizeofObject ≤ chunk ∨ chunk + T.chunkSize ≤ a := by
  obtain ⟨c, hc, hlo, hhi⟩ := mem_slots ha
  have happart := hf.apart c hc
  unfold Apart at happart
  omega

/-- A slot is an address of the process, and not null. -/
theorem Placed.slot_bounds (h : Placed T chunks) (ha : a ∈ T.slots chunks) :
    a ≠ 0 ∧ a + T.sizeofObject ≤ 256 ^ sizeofPointer := by
  obtain ⟨c, hc, hlo, hhi⟩ := mem_slots ha
  have hchunk : c ≠ 0 ∧ c + T.chunkSize ≤ 256 ^ sizeofPointer := by
    clear ha
    induction h with
    | nil => cases hc
    | cons hf _ ih =>
        rcases List.mem_cons.mp hc with rfl | hc
        · exact ⟨hf.ne_zero, hf.inside⟩
        · exact ih hc
  omega

/-- No two slots overlap. -/
theorem Placed.slots_apart (h : Placed T chunks) :
    (T.slots chunks).Pairwise (Apart T.sizeofObject) := by
  induction h with
  | nil => exact List.Pairwise.nil
  | cons hf h ih =>
      rw [slots_cons, List.pairwise_append]
      refine ⟨row_apart _ _ _, ih, fun a ha b hb => ?_⟩
      obtain ⟨hlo, hhi⟩ := row_bounds ha
      rw [Nat.mul_comm] at hhi
      have houtside := hf.slot_outside hb
      unfold Apart chunkSize at *
      omega

theorem Placed.slots_nodup (h : Placed T chunks) : (T.slots chunks).Nodup :=
  h.slots_apart.imp (fun hab => hab.ne T.sizeofObject_pos)

theorem Placed.apart_of_ne (h : Placed T chunks) {b : Nat} (ha : a ∈ T.slots chunks)
    (hb : b ∈ T.slots chunks) (hne : a ≠ b) : Apart T.sizeofObject a b :=
  h.slots_apart.forall ha hb hne

/-- There are fewer slots than an `int` counts, for each has room for a pointer. -/
theorem Placed.length_slots_lt (h : Placed T chunks) : (T.slots chunks).length < 2 ^ 31 := by
  have hle := length_le_of_apart T.sizeofObject_pos h.slots_apart
    (fun a ha => (h.slot_bounds ha).2)
  have hfour : 256 ^ sizeofPointer / T.sizeofObject ≤ 256 ^ sizeofPointer / sizeofPointer :=
    Nat.div_le_div_left T.sizeofPointer_le (by decide)
  have hspace : 256 ^ sizeofPointer / sizeofPointer = 2 ^ 30 := rfl
  omega

end PoolType

/-! ## Linking a chunk -/

namespace ObjectPool

variable {T : PoolType}

/-- The loop and the null behind it link `n + 1` slots in a row, and write
    nowhere else. -/
theorem linkSlots_spec (n : Nat) (mem : Nat → UInt8) {base : Nat} (hne : base ≠ 0)
    (hfit : base + (n + 1) * T.sizeofObject ≤ 256 ^ sizeofPointer) :
    let r := linkSlots T n mem base base
    let mem' := storePtr sizeofPointer r.1 r.2 0
    Chain sizeofPointer mem' base (row T.sizeofObject (n + 1) base) ∧
      ∀ i, (i < base ∨ base + (n + 1) * T.sizeofObject ≤ i) → mem' i = mem i := by
  have hsize := T.sizeofPointer_le
  have hpos := T.sizeofObject_pos
  induction n generalizing mem base with
  | zero =>
      rw [Nat.zero_add, Nat.one_mul] at hfit ⊢
      refine ⟨Chain.nil.push hne (by decide) (fun b hb => by cases hb), fun i hi => ?_⟩
      show storePtr sizeofPointer mem base 0 i = mem i
      apply storePtr_of_not_mem
      omega
  | succ n ih =>
      rw [Nat.succ_mul] at hfit ⊢
      have hnext : (base + T.sizeofObject) % 256 ^ sizeofPointer = base + T.sizeofObject := by
        apply Nat.mod_eq_of_lt
        rw [Nat.succ_mul] at hfit
        omega
      dsimp only [linkSlots]
      rw [hnext]
      obtain ⟨hchain, hframe⟩ := ih (storePtr sizeofPointer mem base (base + T.sizeofObject))
        (show base + T.sizeofObject ≠ 0 by omega) (by omega)
      refine ⟨.cons hne ?_, fun i hi => ?_⟩
      · -- the rest of the loop leaves the link of the first slot alone
        rw [loadPtr_congr (fun i _ hhi => hframe i (by omega)), loadPtr_storePtr_self]
        · exact hchain
        · omega
      · rw [hframe i (by omega)]
        apply storePtr_of_not_mem
        omega

/-- After a refill the free list is the new chunk, slot by slot. -/
theorem refill_spec {chunks : List Nat} {chunk : Nat} (hf : T.Fresh chunks chunk)
    (pool : ObjectPool) :
    Chain sizeofPointer (pool.refill T chunk).mem (pool.refill T chunk).mFreeList
        (row T.sizeofObject T.ALLOC_COUNT chunk) ∧
      ∀ i, (i < chunk ∨ chunk + T.chunkSize ≤ i) → (pool.refill T chunk).mem i = pool.mem i := by
  have hcount : T.ALLOC_COUNT - 1 + 1 = T.ALLOC_COUNT := Nat.sub_add_cancel T.ALLOC_COUNT_pos
  have hfit := hf.inside
  rw [PoolType.chunkSize, Nat.mul_comm] at hfit ⊢
  have hlinked := linkSlots_spec (T := T) (T.ALLOC_COUNT - 1) pool.mem hf.ne_zero
    (by rw [hcount]; exact hfit)
  rw [hcount] at hlinked
  exact hlinked

end ObjectPool
end EasyGameServer
