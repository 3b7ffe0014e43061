/-
  EasyGameServer.ProducerConsumerQueue.Threads

  The queue among its threads: `Produce` and `Consume` as calls of a monitor,
  on the members as they are laid out, with `uint32_t` counters that wrap
  around.  A call makes its turns under the lock, sleeps on `mNotFull` or
  `mNotEmpty` as its `while` loop says, and wakes one sleeper of the other
  condition after it has released the lock.

  However the threads interleave, the counters keep their bounds, no index
  wraps, and the turns are those of one bounded first-in first-out queue.  A
  stored item, or a free slot, always has a thread that will tell a sleeper.
-/

import EasyGameServer.ProducerConsumerQueue
import EasyGameServer.Lib.Monitor

namespace EasyGameServer

open Lib

namespace ProducerConsumerQueue

/-- The data members. -/
structure Members (TElem : Type _) where
  mQueueArray : Nat → TElem
  mOccupiedSize : UInt32
  mQueueOffset : UInt32

inductive Condition where
  | mNotFull
  | mNotEmpty
  deriving DecidableEq, Repr

inductive Call (TElem : Type _) where
  | produce (item : TElem) (waitUntilConsume : Bool)
  | consume (waitUntilProduce : Bool)

/-- What a call returns: false, or true, `Consume` with its item. -/
inductive Result (TElem : Type _) where
  | failed
  | produced
  | consumed (item : TElem)

variable {TElem : Type _} {QSize : Nat}

namespace Members

/-- The constructor; `zero` is the value of zeroed memory. -/
def new (zero : TElem) : Members TElem where
  mQueueArray := fun _ => zero
  mOccupiedSize := 0
  mQueueOffset := 0

/-- One turn under the lock: the loop condition, and what follows the loop. -/
def turn (QSize : Nat) (x : Members TElem) : Call TElem → Turn (Members TElem) (Result TElem)
  | .produce item waitUntilConsume =>
      if x.mOccupiedSize = UInt32.ofNat QSize then
        if waitUntilConsume then .sleep else .leave .failed
      else
        .pass .produced
          { x with
            mQueueArray :=
              memcpy x.mQueueArray
                ((x.mQueueOffset + x.mOccupiedSize) % UInt32.ofNat QSize).toNat [item]
            mOccupiedSize := x.mOccupiedSize + 1 }
  | .consume waitUntilProduce =>
      if x.mOccupiedSize = 0 then
        if waitUntilProduce then .sleep else .leave .failed
      else
        .pass (.consumed (x.mQueueArray x.mQueueOffset.toNat))
          { x with
            mOccupiedSize := x.mOccupiedSize - 1
            mQueueOffset :=
              if x.mQueueOffset + 1 = UInt32.ofNat QSize then 0 else x.mQueueOffset + 1 }

/-- The stored items, the oldest first. -/
def contents (QSize : Nat) (x : Members TElem) : List TElem :=
  (List.range x.mOccupiedSize.toNat).map
    (fun i => x.mQueueArray ((x.mQueueOffset.toNat + i) % QSize))

/-- The bounds of the two counters. -/
structure Bounded (QSize : Nat) (x : Members TElem) : Prop where
  occupied_le : x.mOccupiedSize.toNat ≤ QSize
  offset_lt : x.mQueueOffset.toNat < QSize

/-- None of the sums and differences the turns compute wraps around. -/
structure NoOverflow (x : Members TElem) : Prop where
  index : (x.mQueueOffset + x.mOccupiedSize).toNat
    = x.mQueueOffset.toNat + x.mOccupiedSize.toNat
  occupied : (x.mOccupiedSize + 1).toNat = x.mOccupiedSize.toNat + 1
  freed : x.mOccupiedSize ≠ 0 → (x.mOccupiedSize - 1).toNat + 1 = x.mOccupiedSize.toNat
  offset : (x.mQueueOffset + 1).toNat = x.mQueueOffset.toNat + 1

end Members

/-- The calls, the condition each sleeps on and the one it wakes. -/
def monitor (TElem : Type _) (QSize : Nat) :
    Monitor (Members TElem) (Call TElem) (Result TElem) Condition where
  turn := Members.turn QSize
  waitsOn
    | .produce _ _ => .mNotFull
    | .consume _ => .mNotEmpty
  wakes
    | .produce _ _ => .mNotEmpty
    | .consume _ => .mNotFull

/-- Any number of threads around one queue. -/
def threads (T : Type _) [Fintype T] [DecidableEq T] (QSize : Nat) (zero : TElem) :
    System (Threads T (Members TElem) (Call TElem) (Result TElem)) (Event T (Call TElem)) :=
  (monitor TElem QSize).system T (.new zero)

/-- The bounded queue as a list: a full one refuses a caller that does not
    wait, an empty one too. -/
def boundedFifo (TElem : Type _) (QSize : Nat) :
    Spec (List TElem) (Call TElem) (Result TElem) where
  allow items call result items' :=
    match call, result with
    | .produce item _, .produced => items.length < QSize ∧ items' = items ++ [item]
    | .produce _ wait, .failed => wait = false ∧ items.length = QSize ∧ items' = items
    | .consume _, .consumed item => items = item :: items'
    | .consume wait, .failed => wait = false ∧ items = [] ∧ items' = items
    | _, _ => False

/-- The item a call stored. -/
def storedItem : Call TElem × Result TElem → Option TElem
  | (.produce item _, .produced) => some item
  | _ => none

/-- The item a call took. -/
def takenItem : Call TElem × Result TElem → Option TElem
  | (.consume _, .consumed item) => some item
  | _ => none

def produced (history : List (Call TElem × Result TElem)) : List TElem :=
  history.filterMap storedItem

def consumed (history : List (Call TElem × Result TElem)) : List TElem :=
  history.filterMap takenItem

/-! ## The counters -/

namespace Members

variable [QueueSize QSize] {x y : Members TElem}

omit TElem in
theorem toNat_ofNat_size : (UInt32.ofNat QSize).toNat = QSize := by
  have hlt : QSize < 2 ^ 31 := QueueSize.lt
  rw [UInt32.toNat_ofNat']
  omega

theorem Bounded.noOverflow (h : x.Bounded QSize) : x.NoOverflow := by
  have hocc := h.occupied_le
  have hoff := h.offset_lt
  have hlt : QSize < 2 ^ 31 := QueueSize.lt
  have hone : (1 : UInt32).toNat = 1 := rfl
  refine ⟨?_, ?_, fun hne => ?_, ?_⟩
  · rw [UInt32.toNat_add]
    omega
  · rw [UInt32.toNat_add]
    omega
  · have hpos : x.mOccupiedSize.toNat ≠ 0 := fun h0 => hne (UInt32.toNat_inj.mp h0)
    rw [UInt32.toNat_sub]
    have hmax := x.mOccupiedSize.toNat_lt
    omega
  · rw [UInt32.toNat_add]
    omega

/-- The members as a queue that carries its bounds. -/
def queue (x : Members TElem) (h : x.Bounded QSize) : ProducerConsumerQueue TElem QSize where
  mQueueArray := x.mQueueArray
  mOccupiedSize := x.mOccupiedSize.toNat
  mQueueOffset := x.mQueueOffset.toNat
  occupied_le := h.occupied_le
  offset_lt := h.offset_lt

omit [QueueSize QSize] in
theorem contents_queue (h : x.Bounded QSize) : (x.queue h).contents = x.contents QSize := rfl

omit [QueueSize QSize] in
@[simp] theorem length_contents : (x.contents QSize).length = x.mOccupiedSize.toNat := by
  simp [contents]

theorem bounded_new (zero : TElem) : (new zero).Bounded QSize :=
  ⟨Nat.zero_le _, QueueSize.pos⟩

theorem full_iff : x.mOccupiedSize = UInt32.ofNat QSize ↔ x.mOccupiedSize.toNat = QSize := by
  rw [← UInt32.toNat_inj, toNat_ofNat_size]

omit [QueueSize QSize] in
theorem empty_iff : x.mOccupiedSize = 0 ↔ x.mOccupiedSize.toNat = 0 := by
  rw [← UInt32.toNat_inj]
  rfl

/-- `Produce` behind its loop. -/
theorem produce_spec {item : TElem} (h : x.Bounded QSize)
    (hroom : x.mOccupiedSize ≠ UInt32.ofNat QSize)
    (hy : y = { x with
      mQueueArray :=
        memcpy x.mQueueArray
          ((x.mQueueOffset + x.mOccupiedSize) % UInt32.ofNat QSize).toNat [item]
      mOccupiedSize := x.mOccupiedSize + 1 }) :
    y.Bounded QSize ∧ y.mOccupiedSize.toNat = x.mOccupiedSize.toNat + 1 ∧
      y.contents QSize = x.contents QSize ++ [item] := by
  have hno := h.noOverflow
  have hle := h.occupied_le
  have hoff := h.offset_lt
  have hlt : QSize < 2 ^ 31 := QueueSize.lt
  have hne : x.mOccupiedSize.toNat ≠ QSize := fun hfull => hroom (full_iff.mpr hfull)
  have hy' : y.Bounded QSize := by
    subst hy
    refine ⟨?_, hoff⟩
    change (x.mOccupiedSize + 1).toNat ≤ QSize
    rw [hno.occupied]
    omega
  refine ⟨hy', by rw [hy]; exact hno.occupied, ?_⟩
  rw [← contents_queue h, ← contents_queue hy']
  apply contents_produce
  subst hy
  have hindex : ((x.mQueueOffset + x.mOccupiedSize) % UInt32.ofNat QSize).toNat
      = u32 (x.mQueueOffset.toNat + x.mOccupiedSize.toNat) % QSize := by
    rw [UInt32.toNat_mod, hno.index, toNat_ofNat_size, u32_of_lt (by omega)]
  have hocc : u32 (x.mOccupiedSize.toNat + 1) = (x.mOccupiedSize + 1).toNat := by
    rw [hno.occupied, u32_of_lt (by omega)]
  unfold produce
  rw [dif_neg (by exact hne)]
  simp only [queue, hindex, hocc]

/-- `Consume` behind its loop. -/
theorem consume_spec (h : x.Bounded QSize) (hsome : x.mOccupiedSize ≠ 0)
    (hy : y = { x with
      mOccupiedSize := x.mOccupiedSize - 1
      mQueueOffset :=
        if x.mQueueOffset + 1 = UInt32.ofNat QSize then 0 else x.mQueueOffset + 1 }) :
    y.Bounded QSize ∧ y.mOccupiedSize.toNat + 1 = x.mOccupiedSize.toNat ∧
      x.contents QSize = x.mQueueArray x.mQueueOffset.toNat :: y.contents QSize := by
  have hno := h.noOverflow
  have hle := h.occupied_le
  have hoff := h.offset_lt
  have hlt : QSize < 2 ^ 31 := QueueSize.lt
  have hne : x.mOccupiedSize.toNat ≠ 0 := fun h0 => hsome (empty_iff.mpr h0)
  have hfreed := hno.freed hsome
  have hwrap : x.mQueueOffset + 1 = UInt32.ofNat QSize ↔ x.mQueueOffset.toNat + 1 = QSize := by
    rw [← UInt32.toNat_inj, toNat_ofNat_size, hno.offset]
  have hoffset : y.mQueueOffset.toNat
      = if u32 (x.mQueueOffset.toNat + 1) = QSize then 0 else u32 (x.mQueueOffset.toNat + 1) := by
    subst hy
    rw [u32_of_lt (by omega)]
    by_cases hend : x.mQueueOffset.toNat + 1 = QSize
    · rw [if_pos hend]
      simp only [if_pos (hwrap.mpr hend)]
      rfl
    · rw [if_neg hend]
      simp only [if_neg (fun heq => hend (hwrap.mp heq))]
      exact hno.offset
  have hocc : y.mOccupiedSize.toNat = x.mOccupiedSize.toNat - 1 := by
    subst hy
    change (x.mOccupiedSize - 1).toNat = _
    omega
  have hy' : y.Bounded QSize := by
    refine ⟨by omega, ?_⟩
    rw [hoffset, u32_of_lt (by omega)]
    split <;> omega
  refine ⟨hy', by omega, ?_⟩
  rw [← contents_queue h, ← contents_queue hy']
  apply contents_consume
  unfold consume
  rw [if_neg (by exact hne)]
  have harray : y.mQueueArray = x.mQueueArray := by rw [hy]
  simp only [queue, hoffset, hocc, harray]
  rfl

end Members

/-! ## The turns are those of a bounded queue -/

section Refinement

variable [QueueSize QSize] {x y : Members TElem}

/-- The turns that change the members. -/
theorem pass_cases {c : Call TElem} {answer : Result TElem} (h : x.Bounded QSize)
    (hturn : x.turn QSize c = .pass answer y) :
    y.Bounded QSize ∧
      ((∃ item wait, c = .produce item wait ∧ answer = .produced ∧
          y.mOccupiedSize.toNat = x.mOccupiedSize.toNat + 1 ∧
          y.contents QSize = x.contents QSize ++ [item]) ∨
        ∃ wait item, c = .consume wait ∧ answer = .consumed item ∧
          y.mOccupiedSize.toNat + 1 = x.mOccupiedSize.toNat ∧
          x.contents QSize = item :: y.contents QSize) := by
  cases c with
  | produce item wait =>
      simp only [Members.turn] at hturn
      split at hturn
      next => split at hturn <;> cases hturn
      next hroom =>
        obtain ⟨rfl, hy⟩ := Turn.pass.inj hturn
        obtain ⟨hy', hocc, hcontents⟩ := Members.produce_spec h hroom hy.symm
        exact ⟨hy', .inl ⟨item, wait, rfl, rfl, hocc, hcontents⟩⟩
  | consume wait =>
      simp only [Members.turn] at hturn
      split at hturn
      next => split at hturn <;> cases hturn
      next hsome =>
        obtain ⟨rfl, hy⟩ := Turn.pass.inj hturn
        obtain ⟨hy', hocc, hcontents⟩ := Members.consume_spec h hsome hy.symm
        exact ⟨hy', .inr ⟨wait, _, rfl, rfl, hocc, hcontents⟩⟩

theorem pass_allowed {c : Call TElem} {answer : Result TElem} (h : x.Bounded QSize)
    (hturn : x.turn QSize c = .pass answer y) :
    (boundedFifo TElem QSize).allow (x.contents QSize) c answer (y.contents QSize) := by
  obtain ⟨hy, ⟨item, wait, rfl, rfl, hocc, hcontents⟩ | ⟨wait, item, rfl, rfl, -, hcontents⟩⟩ :=
    pass_cases h hturn
  · refine ⟨?_, hcontents⟩
    have hle := hy.occupied_le
    rw [Members.length_contents]
    omega
  · exact hcontents

/-- What a turn that returns false found. -/
theorem leave_spec {c : Call TElem} {answer : Result TElem}
    (hturn : x.turn QSize c = .leave answer) :
    answer = .failed ∧ (∀ z : Members TElem, z.turn QSize c ≠ .sleep) ∧
      (boundedFifo TElem QSize).allow (x.contents QSize) c answer (x.contents QSize) := by
  cases c with
  | produce item wait =>
      simp only [Members.turn] at hturn
      split at hturn
      next hfull =>
        split at hturn
        next => cases hturn
        next hwait =>
          cases hturn
          refine ⟨rfl, fun z => ?_, eq_false_of_ne_true hwait, ?_, rfl⟩
          · simp only [Members.turn, if_neg hwait]
            split <;> exact fun h => by cases h
          · rw [Members.length_contents]
            exact Members.full_iff.mp hfull
      next => cases hturn
  | consume wait =>
      simp only [Members.turn] at hturn
      split at hturn
      next hempty =>
        split at hturn
        next => cases hturn
        next hwait =>
          cases hturn
          refine ⟨rfl, fun z => ?_, eq_false_of_ne_true hwait, ?_, rfl⟩
          · simp only [Members.turn, if_neg hwait]
            split <;> exact fun h => by cases h
          · rw [← List.length_eq_zero_iff, Members.length_contents]
            exact Members.empty_iff.mp hempty
      next => cases hturn

theorem refines_boundedFifo :
    Refines (monitor TElem QSize).object (boundedFifo TElem QSize) (Members.contents QSize)
      (Members.Bounded QSize) := by
  intro x c answer y h hstep
  simp only [Monitor.object] at hstep
  split at hstep
  next => cases hstep
  next hturn =>
    cases hstep
    exact ⟨h, (leave_spec hturn).2.2⟩
  next hturn =>
    cases hstep
    exact ⟨(pass_cases h hturn).1, pass_allowed h hturn⟩

omit [QueueSize QSize] in
/-- A produced item is queued, a consumed one is the first of the queue. -/
theorem produced_eq {items items' : List TElem} {history : List (Call TElem × Result TElem)}
    (h : (boundedFifo TElem QSize).Allowed items (history.map Prod.fst)
      (history.map Prod.snd) items') :
    items ++ produced history = consumed history ++ items' := by
  induction history generalizing items with
  | nil =>
      cases h
      exact List.append_nil _
  | cons entry history ih =>
      obtain ⟨c, answer⟩ := entry
      obtain _ | ⟨hallow, hrest⟩ := h
      have hmid := ih hrest
      cases c with
      | produce item wait =>
          cases answer with
          | failed =>
              obtain ⟨-, -, rfl⟩ := hallow
              exact hmid
          | produced =>
              obtain ⟨-, rfl⟩ := hallow
              rw [List.append_assoc] at hmid
              exact hmid
          | consumed item' => cases hallow
      | consume wait =>
          cases answer with
          | failed =>
              obtain ⟨-, -, rfl⟩ := hallow
              exact hmid
          | produced => cases hallow
          | consumed item =>
              cases hallow
              exact congrArg (item :: ·) hmid

end Refinement

/-! ## Any number of threads -/

theorem storedItem_failed (c : Call TElem) : storedItem (c, .failed) = none := by
  cases c <;> rfl

theorem takenItem_failed (c : Call TElem) : takenItem (c, .failed) = none := by
  cases c <;> rfl

theorem pass_ne_failed (x y : Members TElem) (c : Call TElem) :
    x.turn QSize c ≠ .pass .failed y := by
  intro hturn
  cases c with
  | produce item wait =>
      simp only [Members.turn] at hturn
      split at hturn
      next => split at hturn <;> cases hturn
      next => cases hturn
  | consume wait =>
      simp only [Members.turn] at hturn
      split at hturn
      next => split at hturn <;> cases hturn
      next => cases hturn

section Runs

variable {T : Type _} [Fintype T] [DecidableEq T] [QueueSize QSize] {zero : TElem}
  {s s' : Threads T (Members TElem) (Call TElem) (Result TElem)}

theorem reachable_spec (hr : (threads T QSize zero).Reachable s) :
    s.shared.Bounded QSize ∧
      (boundedFifo TElem QSize).Allowed [] (s.history.map Prod.fst) (s.history.map Prod.snd)
        (s.shared.contents QSize) :=
  refines_boundedFifo.run (Members.bounded_new zero) (Monitor.history_run hr)

/-- The step by which a call returns false was its only turn, and changed
    nothing but its own thread. -/
theorem failed_unchanged (hr : (threads T QSize zero).Reachable s) {e : Event T (Call TElem)}
    (hs : (threads T QSize zero).step s e = some s') {t : T}
    (hfailed : s'.place t = .outside (some .failed))
    (hbefore : s.place t ≠ .outside (some .failed)) :
    (∃ c, s.place t = .entering c) ∧ s'.shared = s.shared ∧
      produced s'.history = produced s.history ∧ consumed s'.history = consumed s.history ∧
      ∀ u, u ≠ t → s'.place u = s.place u := by
  have hearned := Monitor.earned_of_reachable hr t
  rcases Monitor.returns_cases (Monitor.moves_of_step hs) hfailed hbefore with
    ⟨c, ht, hturn, rfl⟩ | ⟨c, ht⟩
  · have hentering : s.place t = .entering c := by
      cases hp : s.place t with
      | entering d =>
          rw [hp] at ht
          cases ht
          rfl
      | woken d =>
          -- a call that returns false does not sleep
          rw [hp] at ht hearned
          cases ht
          obtain ⟨z, hz⟩ := hearned
          exact absurd hz ((leave_spec hturn).2.1 z)
      | _ =>
          rw [hp] at ht
          cases ht
    refine ⟨⟨c, hentering⟩, rfl, ?_, ?_, fun u hu => Threads.move_of_ne _ _ hu⟩
    · simp [produced, storedItem_failed]
    · simp [consumed, takenItem_failed]
  · rw [ht] at hearned
    obtain ⟨x, y, hturn⟩ := hearned
    exact absurd hturn (pass_ne_failed x y c)

/-- **A bounded queue.**  However the threads' calls interleave, the counters
    keep their bounds and no index computation wraps; the turns are those of
    one bounded first-in first-out queue, so what has been consumed and what is
    stored make up what has been produced, in that order; and a call that
    returns false has changed nothing. -/
theorem interleaved_fifo (hr : (threads T QSize zero).Reachable s) :
    s.shared.Bounded QSize ∧ s.shared.NoOverflow ∧
      (boundedFifo TElem QSize).Allowed [] (s.history.map Prod.fst) (s.history.map Prod.snd)
        (s.shared.contents QSize) ∧
      produced s.history = consumed s.history ++ s.shared.contents QSize ∧
      (s.shared.contents QSize).length = s.shared.mOccupiedSize.toNat ∧
      ∀ e s' t, (threads T QSize zero).step s e = some s' →
        s'.place t = .outside (some .failed) → s.place t ≠ .outside (some .failed) →
        (∃ c, s.place t = .entering c) ∧ s'.shared = s.shared ∧
          produced s'.history = produced s.history ∧ consumed s'.history = consumed s.history ∧
          ∀ u, u ≠ t → s'.place u = s.place u := by
  obtain ⟨hbounded, hallowed⟩ := reachable_spec hr
  refine ⟨hbounded, hbounded.noOverflow, hallowed, ?_, Members.length_contents,
    fun e s' t hs hfailed hbefore => failed_unchanged hr hs hfailed hbefore⟩
  exact (List.nil_append _).symm.trans (produced_eq hallowed)

instance queueSize_one : QueueSize 1 := ⟨Nat.one_pos, by omega⟩

/-- One waits for an item, another brings it. -/
theorem interleaved_fifo_waited :
    ∃ s, (threads (Fin 2) 1 'z').run (.start (.new 'z'))
        [.call 0 (.consume true), .enter 0, .call 1 (.produce 'a' true), .enter 1,
          .wake 1 (some 0), .enter 0] = some s ∧
      consumed s.history = ['a'] ∧ s.shared.Bounded 1 ∧
      produced s.history = consumed s.history ++ s.shared.contents 1 := by
  have hrun : ∃ s, (threads (Fin 2) 1 'z').run (.start (.new 'z'))
      [.call 0 (.consume true), .enter 0, .call 1 (.produce 'a' true), .enter 1,
        .wake 1 (some 0), .enter 0] = some s ∧ consumed s.history = ['a'] := ⟨_, rfl, rfl⟩
  obtain ⟨s, hs, hconsumed⟩ := hrun
  obtain ⟨hbounded, -, -, hproduced, -⟩ := interleaved_fifo (System.Reachable.run (.init rfl) hs)
  exact ⟨s, hs, hconsumed, hbounded, hproduced⟩

/-! ## Who sleeps -/

/-- What a call waits for: free slots and stored items. -/
def units (QSize : Nat) (x : Members TElem) : Condition → Nat
  | .mNotFull => QSize - x.mOccupiedSize.toNat
  | .mNotEmpty => x.mOccupiedSize.toNat

/-- A turn that changes nothing found nothing. -/
theorem units_eq_zero {x : Members TElem} {c : Call TElem}
    (hidle : ∀ answer y, x.turn QSize c ≠ .pass answer y) :
    units QSize x ((monitor TElem QSize).waitsOn c) = 0 := by
  cases c with
  | produce item wait =>
      have hfull : x.mOccupiedSize = UInt32.ofNat QSize := by
        by_contra hroom
        exact hidle _ _ (if_neg hroom)
      have hocc := Members.full_iff.mp hfull
      change QSize - x.mOccupiedSize.toNat = 0
      omega
  | consume wait =>
      have hempty : x.mOccupiedSize = 0 := by
        by_contra hsome
        exact hidle _ _ (if_neg hsome)
      exact Members.empty_iff.mp hempty

theorem paced : (monitor TElem QSize).Paced (Members.Bounded QSize) (units QSize) := by
  constructor
  · intro x c _ hturn
    apply units_eq_zero
    intro answer y hpass
    cases hturn.symm.trans hpass
  · intro x c answer _ hturn
    apply units_eq_zero
    intro answer' y hpass
    cases hturn.symm.trans hpass
  · intro x c answer y h hturn k
    have hle := h.occupied_le
    obtain ⟨hy, ⟨item, wait, rfl, -, hocc, -⟩ | ⟨wait, item, rfl, -, hocc, -⟩⟩ :=
      pass_cases h hturn
    · have hley := hy.occupied_le
      cases k <;> simp [units, monitor] <;> omega
    · cases k <;> simp [units, monitor] <;> omega

/-- **No lost wake-up.**  When every wake-up that is due has been made and
    everybody woken has looked again, no consumer sleeps beside a stored item
    and no producer beside a free slot. -/
theorem sleepers_have_nothing (hr : (threads T QSize zero).Reachable s)
    (hwake : ∀ t c answer, s.place t ≠ .waking c answer)
    (hwoken : ∀ t c, s.place t ≠ .woken c) :
    (0 < s.shared.mOccupiedSize.toNat → ∀ t wait, s.place t ≠ .sleeping (.consume wait)) ∧
      (s.shared.mOccupiedSize.toNat < QSize →
        ∀ t item wait, s.place t ≠ .sleeping (.produce item wait)) := by
  have hquiet : ∀ t k, (monitor TElem QSize).looksAfter k (s.place t) = 0 := by
    intro t k
    cases hp : s.place t with
    | waking c answer => exact absurd hp (hwake t c answer)
    | woken c => exact absurd hp (hwoken t c)
    | _ => rfl
  have hnothing : ∀ t c, s.place t = .sleeping c →
      units QSize s.shared ((monitor TElem QSize).waitsOn c) = 0 := fun t c ht =>
    Monitor.no_lost_wakeup paced (Members.bounded_new zero)
      (fun _ _ _ _ h hturn => (pass_cases h hturn).1) hr hquiet ht
  constructor
  · intro hitem t wait ht
    have hnone : s.shared.mOccupiedSize.toNat = 0 := hnothing t _ ht
    omega
  · intro hroom t item wait ht
    have hnone : QSize - s.shared.mOccupiedSize.toNat = 0 := hnothing t _ ht
    omega

/-- A producer sleeps beside the full queue, and only there. -/
theorem sleepers_have_nothing_full :
    ∃ s, (threads (Fin 2) 1 'z').run (.start (.new 'z'))
        [.call 0 (.produce 'a' true), .enter 0, .wake 0 none, .call 1 (.produce 'b' true),
          .enter 1] = some s ∧
      s.place 1 = .sleeping (.produce 'b' true) ∧
      (0 < s.shared.mOccupiedSize.toNat → ∀ t wait, s.place t ≠ .sleeping (.consume wait)) := by
  have hrun : ∃ s, (threads (Fin 2) 1 'z').run (.start (.new 'z'))
      [.call 0 (.produce 'a' true), .enter 0, .wake 0 none, .call 1 (.produce 'b' true),
        .enter 1] = some s ∧ s.place 0 = .outside (some .produced) ∧
      s.place 1 = .sleeping (.produce 'b' true) := ⟨_, rfl, rfl, rfl⟩
  obtain ⟨s, hs, h0, h1⟩ := hrun
  have hplace : ∀ t, s.place t = .outside (some .produced) ∨
      s.place t = .sleeping (.produce 'b' true) := by
    rw [Fin.forall_fin_two]
    exact ⟨.inl h0, .inr h1⟩
  refine ⟨s, hs, h1, (sleepers_have_nothing (System.Reachable.run (.init rfl) hs) ?_ ?_).1⟩
  · intro t c answer ht
    rcases hplace t with h | h <;> cases h.symm.trans ht
  · intro t c ht
    rcases hplace t with h | h <;> cases h.symm.trans ht

end Runs

end ProducerConsumerQueue
end EasyGameServer
