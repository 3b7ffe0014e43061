/-
  EasyGameServer.ObjectPool.Runs

  Calls of `operator new` and `operator delete` in any order, with the writes
  of the pool's users between them.  The chunks allocated so far and the live
  objects are recorded beside the pool.

  The invariant is `Pooled`: the links lead through free slots only, and the
  free slots and the live objects together are the slots of the chunks.
-/

import EasyGameServer.Lib.Lts
import EasyGameServer.ObjectPool

namespace EasyGameServer.ObjectPool

open Lib

/-- A pool, the chunks it has allocated and the objects that are live. -/
structure Usage where
  pool : ObjectPool
  chunks : List Nat
  live : List Nat

/-- A call of one of the operators, or anything that changes the memory
    between two calls. -/
inductive Event
  | operatorNew (chunk : Nat)
  | operatorDelete (obj : Nat)
  | write (mem : Nat → UInt8)

def step (T : PoolType) (s : Usage) : Event → Option Usage
  | .operatorNew chunk =>
      let r := s.pool.operatorNew T chunk
      some {
        pool := r.2
        chunks := if s.pool.mFreeList = 0 then chunk :: s.chunks else s.chunks
        live := r.1 :: s.live }
  | .operatorDelete obj =>
      (s.pool.operatorDelete obj).map (fun pool =>
        { s with pool := pool, live := s.live.erase obj })
  | .write mem => some { s with pool := { s.pool with mem := mem } }

def system (T : PoolType) : System Usage Event where
  init s := ∃ mem, s = ⟨new mem, [], []⟩
  step := step T

/-- The allocator behind the pool grants fresh chunks, only live objects are
    deleted, and nobody writes to a slot that is free. -/
def Obeys (T : PoolType) (s : Usage) : Event → Prop
  | .operatorNew chunk => s.pool.mFreeList = 0 → T.Fresh s.chunks chunk
  | .operatorDelete obj => obj ∈ s.live
  | .write mem =>
      ∀ a ∈ T.slots s.chunks, a ∉ s.live →
        ∀ i, a ≤ i → i < a + T.sizeofObject → mem i = s.pool.mem i

/-! ## The invariant -/

variable {T : PoolType} {s : Usage} {free : List Nat}

structure Pooled (T : PoolType) (s : Usage) (free : List Nat) : Prop where
  chain : Chain sizeofPointer s.pool.mem s.pool.mFreeList free
  shared : (free ++ s.live).Perm (T.slots s.chunks)
  placed : T.Placed s.chunks
  total : s.pool.mTotalAllocCount = Int32.ofNat (T.slots s.chunks).length
  used : s.pool.mCurrentUseCount = Int32.ofNat s.live.length

namespace Pooled

theorem free_mem (h : Pooled T s free) {a : Nat} (ha : a ∈ free) : a ∈ T.slots s.chunks :=
  h.shared.mem_iff.mp (List.mem_append_left _ ha)

theorem live_mem (h : Pooled T s free) {a : Nat} (ha : a ∈ s.live) : a ∈ T.slots s.chunks :=
  h.shared.mem_iff.mp (List.mem_append_right _ ha)

theorem nodup (h : Pooled T s free) : (free ++ s.live).Nodup :=
  h.shared.nodup_iff.mpr h.placed.slots_nodup

theorem disjoint (h : Pooled T s free) : free.Disjoint s.live :=
  fun a ha ha' => (List.nodup_append.mp h.nodup).2.2 a ha a ha' rfl

theorem live_nodup (h : Pooled T s free) : s.live.Nodup := (List.nodup_append.mp h.nodup).2.1

theorem length_live_lt (h : Pooled T s free) : s.live.length < 2 ^ 31 := by
  have hle := h.shared.length_eq
  have hslots := h.placed.length_slots_lt
  rw [List.length_append] at hle
  omega

theorem mFreeList_lt (h : Pooled T s free) : s.pool.mFreeList < 256 ^ sizeofPointer := by
  rcases Nat.eq_zero_or_pos s.pool.mFreeList with hnull | hpos
  · rw [hnull]
    decide
  · obtain ⟨rest, rfl, -⟩ := h.chain.eq_cons (Nat.ne_of_gt hpos)
    have hbounds := (h.placed.slot_bounds (h.free_mem List.mem_cons_self)).2
    have hsize := T.sizeofObject_pos
    omega

/-! ## One step -/

/-- An empty free list means that every slot is live, so the slots of a new
    chunk are the free ones. -/
theorem refill (h : Pooled T s free) (hnull : s.pool.mFreeList = 0) {chunk : Nat}
    (hf : T.Fresh s.chunks chunk) :
    Pooled T ⟨s.pool.refill T chunk, chunk :: s.chunks, s.live⟩
      (row T.sizeofObject T.ALLOC_COUNT chunk) := by
  have hchain := h.chain
  rw [hnull] at hchain
  have hfree : free = [] := hchain.eq_nil
  have hshared := h.shared
  rw [hfree, List.nil_append] at hshared
  exact {
    chain := (refill_spec hf s.pool).1
    shared := hshared.append_left _
    placed := .cons hf h.placed
    total := by
      show s.pool.mTotalAllocCount + Int32.ofNat T.ALLOC_COUNT = _
      rw [h.total, PoolType.slots_cons, List.length_append, length_row, Int32.ofNat_add,
        Int32.add_comm]
    used := h.used }

/-- The head of the free list becomes a live object. -/
theorem take (h : Pooled T s free) (hne : s.pool.mFreeList ≠ 0) :
    ∃ rest, Pooled T ⟨s.pool.take.2, s.chunks, s.pool.take.1 :: s.live⟩ rest := by
  obtain ⟨rest, rfl, hrest⟩ := h.chain.eq_cons hne
  exact ⟨rest, {
    chain := hrest
    shared := List.perm_middle.trans h.shared
    placed := h.placed
    total := h.total
    used := by
      show s.pool.mCurrentUseCount + 1 = _
      rw [h.used, List.length_cons, Int32.ofNat_add]
      rfl }⟩

theorem operatorNew (h : Pooled T s free) {chunk : Nat} (hok : Obeys T s (.operatorNew chunk))
    {s' : Usage} (hs : step T s (.operatorNew chunk) = some s') : ∃ rest, Pooled T s' rest := by
  obtain rfl := Option.some.inj hs
  unfold ObjectPool.operatorNew
  by_cases hnull : s.pool.mFreeList = 0
  · rw [if_pos hnull, if_pos hnull]
    have hf := hok hnull
    exact (h.refill hnull hf).take hf.ne_zero
  · rw [if_neg hnull, if_neg hnull]
    exact h.take hnull

/-- The assertion of `operator delete` holds as long as an object is live. -/
theorem used_pos (h : Pooled T s free) {obj : Nat} (hobj : obj ∈ s.live) :
    s.pool.mCurrentUseCount > 0 := by
  have hlen := List.length_pos_of_mem hobj
  show 0 < s.pool.mCurrentUseCount
  rw [h.used, Int32.lt_iff_toInt_lt, Int32.toInt_ofNat_of_lt h.length_live_lt, Int32.toInt_zero]
  omega

theorem operatorDelete (h : Pooled T s free) {obj : Nat} (hobj : obj ∈ s.live) {s' : Usage}
    (hs : step T s (.operatorDelete obj) = some s') : Pooled T s' (obj :: free) := by
  have hpos := h.used_pos hobj
  obtain ⟨pool, hpool, rfl⟩ := Option.map_eq_some_iff.mp hs
  rw [ObjectPool.operatorDelete, if_pos hpos] at hpool
  obtain rfl := Option.some.inj hpool
  have hslot := h.live_mem hobj
  exact {
    chain := by
      refine h.chain.push (h.placed.slot_bounds hslot).1 h.mFreeList_lt (fun b hb => ?_)
      have hne : obj ≠ b := fun heq => h.disjoint hb (heq ▸ hobj)
      exact (h.placed.apart_of_ne hslot (h.free_mem hb) hne).mono T.sizeofPointer_le
    shared := by
      have herase : s.live.Perm (obj :: s.live.erase obj) := List.perm_cons_erase hobj
      exact (List.perm_middle.symm.trans (herase.symm.append_left free)).trans h.shared
    placed := h.placed
    total := h.total
    used := by
      have hlen := List.length_pos_of_mem hobj
      show s.pool.mCurrentUseCount - 1 = _
      rw [h.used, List.length_erase_of_mem hobj, Int32.ofNat_sub _ _ hlen]
      rfl }

/-- The links of the free slots are out of the users' reach. -/
theorem write (h : Pooled T s free) {mem : Nat → UInt8} (hok : Obeys T s (.write mem)) :
    Pooled T { s with pool := { s.pool with mem := mem } } free := by
  have hsize := T.sizeofPointer_le
  refine { h with chain := h.chain.congr (fun a ha => loadPtr_congr (fun i hlo hhi => ?_)) }
  exact hok a (h.free_mem ha) (h.disjoint ha) i hlo (by omega)

theorem new_apart (h : Pooled T s free) {chunk : Nat} (hok : Obeys T s (.operatorNew chunk)) :
    (s.pool.operatorNew T chunk).1 ≠ 0 ∧
      ∀ obj ∈ s.live, Apart T.sizeofObject (s.pool.operatorNew T chunk).1 obj := by
  obtain ⟨rest, h'⟩ := h.operatorNew hok rfl
  have hslot := h'.live_mem List.mem_cons_self
  refine ⟨(h'.placed.slot_bounds hslot).1, fun obj hobj => ?_⟩
  apply h'.placed.apart_of_ne hslot (h'.live_mem (List.mem_cons_of_mem _ hobj))
  rintro heq
  exact (List.nodup_cons.mp h'.live_nodup).1 (heq ▸ hobj)

/-! ## The bytes of the live objects -/

theorem operatorNew_frame (h : Pooled T s free) {chunk : Nat}
    (hok : Obeys T s (.operatorNew chunk)) {obj i : Nat} (hobj : obj ∈ s.live) (hlo : obj ≤ i)
    (hhi : i < obj + T.sizeofObject) : (s.pool.operatorNew T chunk).2.mem i = s.pool.mem i := by
  unfold ObjectPool.operatorNew
  by_cases hnull : s.pool.mFreeList = 0
  · rw [if_pos hnull]
    have houtside := (hok hnull).slot_outside (h.live_mem hobj)
    exact (refill_spec (hok hnull) s.pool).2 i (by omega)
  · rw [if_neg hnull]
    rfl

theorem operatorDelete_frame (h : Pooled T s free) {obj obj' i : Nat} {pool : ObjectPool}
    (hpool : s.pool.operatorDelete obj = some pool) (hobj : obj ∈ s.live) (hobj' : obj' ∈ s.live)
    (hne : obj ≠ obj') (hlo : obj' ≤ i) (hhi : i < obj' + T.sizeofObject) :
    pool.mem i = s.pool.mem i := by
  rw [ObjectPool.operatorDelete, if_pos (h.used_pos hobj)] at hpool
  obtain rfl := Option.some.inj hpool
  have hsize := T.sizeofPointer_le
  have happart := h.placed.apart_of_ne (h.live_mem hobj) (h.live_mem hobj') hne
  unfold Apart at happart
  apply storePtr_of_not_mem
  omega

end Pooled

/-! ## Runs -/

theorem pooled_invariant (T : PoolType) :
    (system T).IsInvariant (Obeys T) (fun s => ∃ free, Pooled T s free) where
  init := by
    rintro s ⟨mem, rfl⟩
    exact ⟨[], ⟨.nil, List.Perm.nil, .nil, rfl, rfl⟩⟩
  step := by
    rintro s e s' - ⟨free, h⟩ hok hs
    cases e with
    | operatorNew chunk => exact h.operatorNew hok hs
    | operatorDelete obj => exact ⟨_, h.operatorDelete hok hs⟩
    | write mem =>
        obtain rfl := Option.some.inj hs
        exact ⟨free, h.write hok⟩

/-- What the users of a pool rely on. -/
structure Sound (T : PoolType) (s : Usage) : Prop where
  freeList : ∃ free, Chain sizeofPointer s.pool.mem s.pool.mFreeList free ∧ free.Nodup ∧
    free.Disjoint s.live ∧ (free ++ s.live).Perm (T.slots s.chunks)
  slots_apart : (T.slots s.chunks).Pairwise (Apart T.sizeofObject)
  live_nodup : s.live.Nodup
  mCurrentUseCount_eq : s.pool.mCurrentUseCount.toInt = s.live.length
  mTotalAllocCount_eq : s.pool.mTotalAllocCount.toInt = (T.slots s.chunks).length
  new_apart : ∀ chunk, Obeys T s (.operatorNew chunk) →
    (s.pool.operatorNew T chunk).1 ≠ 0 ∧
      ∀ obj ∈ s.live, Apart T.sizeofObject (s.pool.operatorNew T chunk).1 obj
  delete_isSome : ∀ obj ∈ s.live, (s.pool.operatorDelete obj).isSome

/-- Neither operator writes to an object that is live before and after the call. -/
theorem live_untouched (T : PoolType) {s s' : Usage} (h : (system T).ReachableBy (Obeys T) s)
    {e : Event} (hok : Obeys T s e) (hs : step T s e = some s') (hcall : ∀ mem, e ≠ .write mem)
    {obj i : Nat} (hobj : obj ∈ s.live) (hobj' : obj ∈ s'.live) (hlo : obj ≤ i)
    (hhi : i < obj + T.sizeofObject) : s'.pool.mem i = s.pool.mem i := by
  obtain ⟨free, hp⟩ := (pooled_invariant T).holds h
  cases e with
  | operatorNew chunk =>
      obtain rfl := Option.some.inj hs
      exact hp.operatorNew_frame hok hobj hlo hhi
  | operatorDelete deleted =>
      obtain ⟨pool, hpool, rfl⟩ := Option.map_eq_some_iff.mp hs
      have hne : obj ≠ deleted := (hp.live_nodup.mem_erase_iff.mp hobj').1
      exact hp.operatorDelete_frame hpool hok hobj hne.symm hlo hhi
  | write mem => exact absurd rfl (hcall mem)

/-- The free list and the live objects share the slots out between them,
    whatever the order of the calls. -/
theorem slots_shared (T : PoolType) (s : Usage) (h : (system T).ReachableBy (Obeys T) s) :
    Sound T s := by
  obtain ⟨free, hp⟩ := (pooled_invariant T).holds h
  exact {
    freeList := ⟨free, hp.chain, hp.chain.nodup, hp.disjoint, hp.shared⟩
    slots_apart := hp.placed.slots_apart
    live_nodup := hp.live_nodup
    mCurrentUseCount_eq := by rw [hp.used, Int32.toInt_ofNat_of_lt hp.length_live_lt]
    mTotalAllocCount_eq := by rw [hp.total, Int32.toInt_ofNat_of_lt hp.placed.length_slots_lt]
    new_apart := fun _ hok => hp.new_apart hok
    delete_isSome := fun obj hobj => by
      rw [ObjectPool.operatorDelete, if_pos (hp.used_pos hobj)]
      rfl }

/-- Objects of eight bytes, two to a chunk. -/
def eights : PoolType where
  sizeofObject := 8
  ALLOC_COUNT := 2
  sizeofPointer_le := Nat.le_of_ble_eq_true rfl
  ALLOC_COUNT_pos := Nat.le_of_ble_eq_true rfl

/-- The chunk is full, the first object is deleted, and the next one gets its slot. -/
theorem slots_shared_reused :
    ∃ s, Sound eights s ∧ s.chunks = [64] ∧ s.live = [64, 72] ∧ s.pool.mFreeList = 0 := by
  have h₀ : (system eights).ReachableBy (Obeys eights) ⟨new (fun _ => 0), [], []⟩ :=
    .init ⟨_, rfl⟩
  have h₁ := h₀.step (a := Event.operatorNew 64) (fun _ => ⟨by decide, by decide, by simp⟩) rfl
  have h₂ := h₁.step (a := Event.operatorNew 0) (fun hnull => absurd hnull (by decide)) rfl
  have h₃ := h₂.step (a := Event.operatorDelete 64) (List.mem_of_elem_eq_true rfl) rfl
  have h₄ := h₃.step (a := Event.operatorNew 0) (fun hnull => absurd hnull (by decide)) rfl
  exact ⟨_, slots_shared eights _ h₄, rfl, rfl, rfl⟩

end EasyGameServer.ObjectPool
