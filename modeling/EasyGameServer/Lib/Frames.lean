/-
  EasyGameServer.Lib.Frames

  Streams of frames.  A sender concatenates its frames, a receiver sees a
  prefix of that stream that grows in pieces of any size.  `complete` says
  which frames lie whole within the first so many items.

  A receiver that takes whole frames off the front keeps what is left of a
  prefix a prefix of the remaining frames; when no whole frame is left, what it
  has taken is what is complete.
-/

import Mathlib.Data.List.Basic

namespace EasyGameServer.Lib

variable {α : Type _}

/-- The frames that lie whole within the first `n` items. -/
def complete : List (List α) → Nat → List (List α)
  | [], _ => []
  | frame :: frames, n =>
      if frame.length ≤ n then frame :: complete frames (n - frame.length) else []

theorem complete_cons_of_le {frame : List α} {n : Nat} (h : frame.length ≤ n)
    (frames : List (List α)) :
    complete (frame :: frames) n = frame :: complete frames (n - frame.length) := if_pos h

theorem complete_cons_of_lt {frame : List α} {n : Nat} (h : n < frame.length)
    (frames : List (List α)) : complete (frame :: frames) n = [] := if_neg (Nat.not_le.mpr h)

/-- What lies behind some frames does not count for them. -/
theorem complete_append (done rest : List (List α)) (n : Nat) :
    complete (done ++ rest) (done.flatten.length + n) = done ++ complete rest n := by
  induction done with
  | nil => simp
  | cons frame done ih =>
      have hle : frame.length ≤ (frame :: done).flatten.length + n := by
        rw [List.flatten_cons, List.length_append]
        omega
      have hrest : (frame :: done).flatten.length + n - frame.length
          = done.flatten.length + n := by
        rw [List.flatten_cons, List.length_append]
        omega
      rw [List.cons_append, complete_cons_of_le hle, hrest, ih, List.cons_append]

/-- In all of them all are complete. -/
theorem complete_flatten (frames : List (List α)) :
    complete frames frames.flatten.length = frames := by
  have h := complete_append frames [] 0
  rw [List.append_nil, Nat.add_zero] at h
  exact h.trans (List.append_nil frames)

/-- A prefix that has the first frame is that frame and a prefix of the rest. -/
theorem prefix_drop {frame : List α} {got rest : List α} (h : got <+: frame ++ rest)
    (hle : frame.length ≤ got.length) :
    got = frame ++ got.drop frame.length ∧ got.drop frame.length <+: rest := by
  have hframe : frame <+: got := List.prefix_of_prefix_length_le (List.prefix_append ..) h hle
  obtain ⟨tail, rfl⟩ := hframe
  rw [List.drop_left]
  exact ⟨rfl, (List.prefix_append_right_inj frame).mp h⟩

/-- Where a stream is cut after some frames, the next one comes. -/
theorem next_of_cut {got done frame tail : List α} (h : got <+: done ++ (frame ++ tail))
    (hlen : frame.length ≤ (got.drop done.length).length) :
    (got.drop done.length).take frame.length = frame := by
  obtain ⟨t, ht⟩ := h
  have hdrop : got.drop done.length ++ t.drop (done.length - got.length) = frame ++ tail := by
    rw [← List.drop_append, ht, List.drop_left]
  rw [← List.take_append_of_le_length hlen, hdrop, List.take_left]

end EasyGameServer.Lib
