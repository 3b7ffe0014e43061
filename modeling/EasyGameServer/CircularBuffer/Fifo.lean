/-
  EasyGameServer.CircularBuffer.Fifo

  The ring buffer as a FIFO of bytes.  `fifo` states what each public
  operation does to a byte list; `object` packages the modelled operations,
  with the complete receive sequence (`GetFreeSpaceSize`, `GetBuffer`, a store
  by somebody else, `Commit`) as one of them.  The refinement holds for every
  sequence of operations from the constructor.
-/

import EasyGameServer.CircularBuffer.Valid
import EasyGameServer.Lib.Refine

namespace EasyGameServer

open Lib

namespace CircularBuffer

/-- The operations of the class, with the bytes their callers supply. -/
inductive Op where
  | write (data : List UInt8) (n : Nat)
  | peek (n : Nat)
  | read (n : Nat)
  | remove (k : Nat)
  | getFreeSpaceSize
  | receive (data : List UInt8)

/-- What an operation answers. -/
inductive Answer where
  | done
  | ok (b : Bool)
  | size (n : Nat)
  | bytes (out : Option (List UInt8))

/-- The class as a sequential object.  Refused are a `Write` of more bytes
    than its source has and a receive of more bytes than `GetFreeSpaceSize`
    offered. -/
def object : Object CircularBuffer Op Answer where
  step cb
    | .write data n =>
        if n ≤ data.length then
          some (.ok (cb.write data n).1, (cb.write data n).2)
        else none
    | .peek n => some (.bytes (cb.peek n), cb)
    | .read n =>
        match cb.read n with
        | none => some (.bytes none, cb)
        | some (out, cb') => some (.bytes (some out), cb')
    | .remove k => some (.done, cb.remove k)
    | .getFreeSpaceSize => some (.size cb.getFreeSpaceSize.1, cb.getFreeSpaceSize.2)
    | .receive data =>
        let (f, cb') := cb.getFreeSpaceSize
        if data.length ≤ f then
          some (.done, (cb'.store data).commit data.length)
        else none

/-- A FIFO of bytes: what each operation may answer and leave behind. -/
def fifo : Spec (List UInt8) Op Answer where
  allow before op answer after :=
    match op with
    | .write data n =>
        (answer = .ok true ∧ after = before ++ data.take n) ∨
          (answer = .ok false ∧ after = before)
    | .peek n =>
        after = before ∧
          answer = .bytes (if n ≤ before.length then some (before.take n) else none)
    | .read n =>
        if n ≤ before.length then
          answer = .bytes (some (before.take n)) ∧ after = before.drop n
        else
          answer = .bytes none ∧ after = before
    | .remove k => answer = .done ∧ after = before.drop (min k before.length)
    | .getFreeSpaceSize => (∃ f, answer = .size f) ∧ after = before
    | .receive data => answer = .done ∧ after = before ++ data

/-- Each operation on a valid buffer is a FIFO operation on its contents. -/
theorem refines_fifo : Refines object fifo contents Valid := by
  intro cb op answer cb' hv hstep
  cases op with
  | write data n =>
      by_cases hn : n ≤ data.length
      · simp only [object, if_pos hn, Option.some.injEq, Prod.mk.injEq] at hstep
        obtain ⟨rfl, rfl⟩ := hstep
        obtain ⟨hv', hc, -, -⟩ := write_spec hv data n hn
        refine ⟨hv', ?_⟩
        cases hok : (cb.write data n).1 with
        | true => exact Or.inl ⟨rfl, by rw [hc, hok, if_pos rfl]⟩
        | false => exact Or.inr ⟨rfl, by rw [hc, hok]; simp⟩
      · simp [object, if_neg hn] at hstep
  | peek n =>
      simp only [object, Option.some.injEq, Prod.mk.injEq] at hstep
      obtain ⟨rfl, rfl⟩ := hstep
      exact ⟨hv, rfl, by rw [peek_spec, length_contents]⟩
  | read n =>
      simp only [object] at hstep
      by_cases hn : n ≤ cb.getStoredSize
      · obtain ⟨cb₁, hread, hv₁, hc₁, -⟩ := read_spec hv hn
        rw [hread] at hstep
        simp only [Option.some.injEq, Prod.mk.injEq] at hstep
        obtain ⟨rfl, rfl⟩ := hstep
        refine ⟨hv₁, ?_⟩
        simp only [fifo, length_contents, if_pos hn]
        exact ⟨trivial, hc₁⟩
      · rw [read_none (by omega)] at hstep
        simp only [Option.some.injEq, Prod.mk.injEq] at hstep
        obtain ⟨rfl, rfl⟩ := hstep
        refine ⟨hv, ?_⟩
        simp [fifo, length_contents, if_neg hn]
  | remove k =>
      simp only [object, Option.some.injEq, Prod.mk.injEq] at hstep
      obtain ⟨rfl, rfl⟩ := hstep
      obtain ⟨hv', hc, -⟩ := remove_spec hv k
      refine ⟨hv', rfl, ?_⟩
      rw [hc]
      by_cases hk : k ≤ cb.contents.length
      · rw [Nat.min_eq_left hk]
      · rw [Nat.min_eq_right (by omega), List.drop_of_length_le (by omega), List.drop_length]
  | getFreeSpaceSize =>
      simp only [object, Option.some.injEq, Prod.mk.injEq] at hstep
      obtain ⟨rfl, rfl⟩ := hstep
      obtain ⟨hv', hc, -, -⟩ := getFreeSpaceSize_spec hv
      exact ⟨hv', ⟨_, rfl⟩, hc⟩
  | receive data =>
      obtain ⟨hv', hc, -, hroom⟩ := getFreeSpaceSize_spec hv
      simp only [object] at hstep
      by_cases hfit : data.length ≤ cb.getFreeSpaceSize.1
      · rw [if_pos hfit] at hstep
        simp only [Option.some.injEq, Prod.mk.injEq] at hstep
        obtain ⟨rfl, rfl⟩ := hstep
        obtain ⟨hv'', hc'', -⟩ := store_commit_spec hv' data (by omega)
        exact ⟨hv'', rfl, by rw [hc'', hc]⟩
      · rw [if_neg hfit] at hstep
        cases hstep

/-- The states the class can be in: the constructor's, and what allowed
    operations make of them. -/
def Reachable (capacity : Nat) (cb : CircularBuffer) : Prop :=
  ∃ mem ops answers, object.run (new capacity mem) ops = some (answers, cb)

theorem Reachable.valid {capacity : Nat} {cb : CircularBuffer}
    (h : Reachable capacity cb) : cb.Valid := by
  obtain ⟨mem, ops, answers, hrun⟩ := h
  exact (refines_fifo.run (valid_new capacity mem) hrun).1

/-- **FIFO refinement.**  Whatever the array's initial bytes and whatever
    sequence of operations is made on a new buffer, the answers are those of a
    FIFO that starts empty and ends with the buffer's contents. -/
theorem run_refines_fifo (capacity : Nat) (mem : Nat → UInt8) (ops : List Op)
    (answers : List Answer) (cb : CircularBuffer)
    (hrun : object.run (new capacity mem) ops = some (answers, cb)) :
    fifo.Allowed [] ops answers cb.contents := by
  have h := (refines_fifo.run (valid_new capacity mem) hrun).2
  rwa [contents_new] at h

/-- A run through the wrap: fill, drain part, write into B, read across. -/
theorem run_refines_fifo_wrap :
    ∃ answers cb,
      object.run (new 4 (fun _ => 0))
        [.write [1, 2, 3, 4] 4, .read 3, .write [5, 6] 2, .read 2] = some (answers, cb) ∧
      fifo.Allowed []
        [.write [1, 2, 3, 4] 4, .read 3, .write [5, 6] 2, .read 2] answers cb.contents :=
  ⟨_, _, rfl, run_refines_fifo 4 (fun _ => 0) _ _ _ rfl⟩

end CircularBuffer
end EasyGameServer
