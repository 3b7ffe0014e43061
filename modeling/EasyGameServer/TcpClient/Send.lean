/-
  EasyGameServer.TcpClient.Send

  `TcpClient::send` of the Cocos client.  Its loop adds what a call of `::send`
  has accepted to `count` and takes it off `length`, and goes on as long as
  `count < length`: the two counters meet halfway.

  So the loop ends as soon as half of the bytes have been accepted.  It has
  handed over everything by then exactly when no call leaves the total between
  half and whole.
-/

import EasyGameServer.Lib.Loop
import EasyGameServer.Lib.Memory
import EasyGameServer.PacketType
import Mathlib.Algebra.Group.Nat.Defs

namespace EasyGameServer

open Lib

namespace TcpClient

def SOCKET_ERROR : Int := -1

/-- What the calls of `::send` answer: the `k`-th one, offered so many bytes,
    accepts at least one of them and at most all, or fails. -/
structure Socket where
  send : Nat → Int → Int
  bounded : ∀ k len, 0 < len → send k len ≠ SOCKET_ERROR → 1 ≤ send k len ∧ send k len ≤ len

/-- The variables of the loop, the calls made and the bytes they accepted. -/
structure Sending where
  count : Int
  length : Int
  calls : Nat
  accepted : List UInt8

/-- The loop of `send`; it leaves with what the function returns and the bytes
    that were accepted. -/
def sendBody (sock : Socket) (data : Nat → UInt8) (s : Sending) :
    Iter Sending (Bool × List UInt8) :=
  if s.count < s.length then
    let n := sock.send s.calls s.length
    if n = SOCKET_ERROR then .leave (false, s.accepted)
    else
      .again
        { count := s.count + n
          length := s.length - n
          calls := s.calls + 1
          accepted := s.accepted ++ slice data s.count.toNat n.toNat }
  else .leave (true, s.accepted)

/-- `send(data, length)` up to its loop. -/
def send (length : Int) : Sending where
  count := 0
  length := length
  calls := 0
  accepted := []

/-- The total accepted by the first `k` calls when each is offered what is
    left of `length`; `none` once a call has failed. -/
def Socket.sent (sock : Socket) (length : Int) : Nat → Option Int
  | 0 => some 0
  | k + 1 =>
      match sock.sent length k with
      | none => none
      | some total =>
          if total < length then
            if sock.send k (length - total) = SOCKET_ERROR then none
            else some (total + sock.send k (length - total))
          else some total

/-- Some call leaves the total between half and whole. -/
def Socket.Straddles (sock : Socket) (length : Int) : Prop :=
  ∃ k total, sock.sent length k = some total ∧ total < length ∧ length ≤ 2 * total

variable {sock : Socket} {data : Nat → UInt8} {length total : Int} {k : Nat}

theorem sent_succ_of_lt (h : sock.sent length k = some total) (hlt : total < length)
    (hok : sock.send k (length - total) ≠ SOCKET_ERROR) :
    sock.sent length (k + 1) = some (total + sock.send k (length - total)) := by
  simp only [Socket.sent, h, if_pos hlt, if_neg hok]

theorem sent_add_of_none (h : sock.sent length k = none) (m : Nat) :
    sock.sent length (k + m) = none := by
  induction m with
  | zero => exact h
  | succ m ih =>
      rw [← Nat.add_assoc]
      simp only [Socket.sent, ih]

/-- After a call that failed there is no total. -/
theorem sent_eq_none_of_error (h : sock.sent length k = some total) (hlt : total < length)
    (herr : sock.send k (length - total) = SOCKET_ERROR) {j : Nat} (hj : k < j) :
    sock.sent length j = none := by
  obtain ⟨m, rfl⟩ := Nat.exists_eq_add_of_le (Nat.succ_le_of_lt hj)
  apply sent_add_of_none
  simp only [Socket.sent, h, if_pos hlt, if_pos herr]

/-- The whole is not exceeded. -/
theorem sent_eq_of_whole (h : sock.sent length k = some total) (hwhole : ¬ total < length)
    {j : Nat} (hj : k ≤ j) : sock.sent length j = some total := by
  obtain ⟨m, rfl⟩ := Nat.exists_eq_add_of_le hj
  induction m with
  | zero => exact h
  | succ m ih =>
      have hm := ih (Nat.le_add_right ..)
      rw [← Nat.add_assoc]
      simp only [Socket.sent, hm, if_neg hwhole]

/-- At the loop head: the two counters add up to the length, what was accepted
    is what `count` says, and no call so far has reached half. -/
structure Counted (sock : Socket) (data : Nat → UInt8) (total : Int) (s : Sending) : Prop where
  sum : s.count + s.length = total
  count_nonneg : 0 ≤ s.count
  sent : sock.sent total s.calls = some s.count
  accepted : s.accepted = slice data 0 s.count.toNat
  inside : s.count ≤ total ∨ s.count = 0
  below : ∀ j < s.calls, ∀ t, sock.sent total j = some t → 2 * t < total

theorem counted_send (sock : Socket) (data : Nat → UInt8) (length : Int) :
    Counted sock data length (send length) where
  sum := Int.zero_add length
  count_nonneg := Int.le_refl 0
  sent := rfl
  accepted := rfl
  inside := .inr rfl
  below := fun _ hj => absurd hj (Nat.not_lt_zero _)

theorem Counted.again {s s' : Sending} (h : Counted sock data total s)
    (hbody : sendBody sock data s = .again s') :
    Counted sock data total s' ∧ s'.length.toNat < s.length.toNat := by
  have hsum := h.sum
  have hnonneg := h.count_nonneg
  unfold sendBody at hbody
  split at hbody
  next hlt =>
    simp only at hbody
    split at hbody
    next => cases hbody
    next hok =>
      cases hbody
      have hlen : s.length = total - s.count := by omega
      obtain ⟨hone, hall⟩ := sock.bounded s.calls s.length (by omega) hok
      constructor
      · constructor
        · simp only
          omega
        · simp only
          omega
        · rw [hlen] at hok ⊢
          exact sent_succ_of_lt h.sent (by omega) hok
        · have hadd : (s.count + sock.send s.calls s.length).toNat
              = s.count.toNat + (sock.send s.calls s.length).toNat :=
            Int.toNat_add hnonneg (by omega)
          simp only
          rw [h.accepted, hadd, slice_add, Nat.zero_add]
        · simp only
          omega
        · intro j hj t ht
          rcases Nat.lt_succ_iff_lt_or_eq.mp hj with hlt' | rfl
          · exact h.below j hlt' t ht
          · cases h.sent.symm.trans ht
            omega
      · simp only
        omega
  next => cases hbody

/-- A total that is half or more belongs to no call before this one. -/
theorem Counted.le_of_half {s : Sending} (h : Counted sock data total s) {j : Nat} {t : Int}
    (ht : sock.sent total j = some t) (hhalf : total ≤ 2 * t) : s.calls ≤ j := by
  by_contra hlt
  have hbelow := h.below j (Nat.lt_of_not_le hlt) t ht
  omega

/-- When the loop is left, true was answered for everything unless a total lay
    between half and whole. -/
theorem Counted.leave {s : Sending} {r : Bool × List UInt8} (h : Counted sock data total s)
    (hbody : sendBody sock data s = .leave r) :
    (r.1 = true → r.2 = slice data 0 total.toNat) ↔ ¬ sock.Straddles total := by
  have hsum := h.sum
  have hnonneg := h.count_nonneg
  have hinside := h.inside
  unfold sendBody at hbody
  split at hbody
  next hlt =>
    simp only at hbody
    split at hbody
    next herr =>
      -- a failed call: every total before it is below half
      cases hbody
      have hlen : s.length = total - s.count := by omega
      rw [hlen] at herr
      constructor
      · rintro - ⟨j, t, ht, -, hhalf⟩
        rcases Nat.eq_or_lt_of_le (h.le_of_half ht hhalf) with rfl | hj
        · cases h.sent.symm.trans ht
          omega
        · cases (sent_eq_none_of_error h.sent (by omega) herr hj).symm.trans ht
      · intro _ hfalse
        cases hfalse
    next => cases hbody
  next hge =>
    cases hbody
    by_cases hwhole : s.count < total
    · constructor
      · intro hall
        have hlength := congrArg List.length (hall rfl)
        rw [h.accepted, length_slice, length_slice] at hlength
        omega
      · intro hno
        exact absurd ⟨s.calls, s.count, h.sent, hwhole, by omega⟩ hno
    · constructor
      · rintro - ⟨j, t, ht, hpart, hhalf⟩
        have hj := h.le_of_half ht hhalf
        cases (sent_eq_of_whole h.sent hwhole hj).symm.trans ht
        exact hwhole hpart
      · intro _ _
        have hcount : s.count.toNat = total.toNat := by omega
        rw [h.accepted, hcount]

/-- **Sending.**  For every buffer, every length and everything the calls of
    `::send` may answer, `send` returns, and it returns true only for the whole
    data if and only if no call leaves the total accepted between half of the
    length and the length. -/
theorem send_whole_iff (sock : Socket) (data : Nat → UInt8) (length : Int) :
    ∃ n r, loop (sendBody sock data) n (send length) = some r ∧
      ((r.1 = true → r.2 = slice data 0 length.toNat) ↔ ¬ sock.Straddles length) := by
  have hentry := counted_send sock data length
  obtain ⟨n, r, hloop⟩ := terminates_of_measure (Counted sock data length)
    (fun s => s.length.toNat) (fun s s' h hbody => h.again hbody) _ hentry
  exact ⟨n, r, hloop, loop_result (Counted sock data length) _
    (fun s s' h hbody => (h.again hbody).1) (fun s r h hbody => h.leave hbody) hentry hloop⟩

/-- A socket that accepts half of what it is offered. -/
def halfSocket : Socket where
  send _ len := (len + 1) / 2
  bounded _ len h _ := by omega

/-- The bytes `moveRequest(x, y)` sends for a player that is logged in. -/
def moveRequest (mLoginId : Int32) (x y : CFloat) : List UInt8 :=
  PacketHeader.toBytes ⟨Int16.ofNat sizeofMoveRequest, PacketTypes.pktCsMove.value⟩
    ++ int32Bytes mLoginId ++ uint32Bytes x ++ uint32Bytes y

/-- Of the 16 bytes of a move request 8 are accepted, and `send` returns true. -/
theorem send_half :
    ∃ (sock : Socket) (data : Nat → UInt8) (r : Bool × List UInt8),
      slice data 0 sizeofMoveRequest = moveRequest 7 0x3F800000 0x40000000 ∧
      loop (sendBody sock data) 2 (send sizeofMoveRequest) = some r ∧
      r.1 = true ∧ r.2 ≠ slice data 0 sizeofMoveRequest :=
  ⟨halfSocket, memcpy (fun _ => 0) 0 (moveRequest 7 0x3F800000 0x40000000), _, by decide, rfl,
    rfl, by decide⟩

end TcpClient
end EasyGameServer
