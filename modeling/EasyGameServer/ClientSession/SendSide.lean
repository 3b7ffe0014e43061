/-
  EasyGameServer.ClientSession.SendSide

  The send side of one session: `SendRequest`, the flush that every turn of
  the client thread's loop makes, `SendCompletion`, and disconnects from
  elsewhere, in any order.  `transmitted` is what the successful calls of
  `WSASend` handed over, `handed` what all calls did.

  `SendFlush` does not remember that an earlier send is still outstanding.  A
  flush that meets none keeps both a prefix of what `SendRequest` accepted.
-/

import EasyGameServer.ClientSession.Basic
import EasyGameServer.Lib.Lts

namespace EasyGameServer

open Lib

namespace ClientSession

/-- One session, the system it talks to, and the bytes of the packets for
    which `SendRequest` returned true. -/
structure SendSide where
  session : ClientSession
  os : Os
  accepted : List UInt8

namespace SendSide

inductive Event where
  | sendRequest (pkt : OutPacket)
  | flush
  /-- The completion of the oldest outstanding send, with its full length. -/
  | sendCompletion
  | disconnect

def step (this : SessionId) (st : SendSide) : Event → Option SendSide
  | .sendRequest pkt =>
      let r := st.session.sendRequest pkt st.os
      some ⟨r.2.1, r.2.2, if r.1 then st.accepted ++ pkt.toBytes else st.accepted⟩
  | .flush =>
      let r := st.session.flushClientSend this st.os
      some { st with session := r.1, os := r.2 }
  | .sendCompletion =>
      match st.os.sends with
      | [] => none
      | p :: rest =>
          let r := st.session.sendCompletion false p.len { st.os with sends := rest }
          some { st with session := r.1, os := r.2 }
  | .disconnect =>
      let r := st.session.disconnect st.os
      some { st with session := r.1, os := r.2 }

/-- A connected session with nothing to send and nothing sent. -/
def Start (st : SendSide) : Prop :=
  (∃ mem, st.session.mSendBuffer = .new BUFSIZE mem) ∧ st.session.mConnected = true ∧
    st.os.sends = [] ∧ st.os.wire = [] ∧ st.accepted = []

def system (this : SessionId) : System SendSide Event where
  init := Start
  step := step this

/-- All byte ranges handed to `WSASend`, in order. -/
def handed (st : SendSide) : List UInt8 := st.os.wire.flatMap SendCall.data

/-- Those whose call succeeded or pends. -/
def transmitted (st : SendSide) : List UInt8 :=
  (st.os.wire.filter SendCall.ok).flatMap SendCall.data

/-- A flush would reach `WSASend`. -/
def Posts (st : SendSide) : Prop :=
  st.session.mConnected = true ∧ st.session.mSendBuffer.getContiguousBytes ≠ 0

/-- No flush reaches `WSASend` while an earlier send is outstanding. -/
def noOverlap (st : SendSide) : Event → Prop
  | .flush => st.Posts → st.os.sends = []
  | _ => True

/-- Nor after a call of `WSASend` that failed. -/
def noRetry (st : SendSide) : Event → Prop
  | .flush => st.Posts → st.os.sends = [] ∧ ∀ c ∈ st.os.wire, c.ok = true
  | _ => True

theorem noOverlap_of_noRetry {st : SendSide} {e : Event} (h : st.noRetry e) :
    st.noOverlap e := by
  cases e with
  | flush => exact fun hp => (h hp).1
  | sendRequest pkt => trivial
  | sendCompletion => trivial
  | disconnect => trivial

/-! ## The invariant -/

/-- The buffer holds what was accepted and not yet completed; the first
    `posted` bytes of it are with the system. -/
structure Split (st : SendSide) (removed : List UInt8) (posted : Nat) : Prop where
  accepted : st.accepted = removed ++ st.session.mSendBuffer.contents
  transmitted : st.transmitted = removed ++ st.session.mSendBuffer.contents.take posted
  posted_le : posted ≤ st.session.mSendBuffer.getStoredSize
  sends : st.session.mConnected = true →
    st.os.sends.map SendPost.len = if posted = 0 then [] else [posted]

structure Inv (st : SendSide) : Prop where
  valid : st.session.mSendBuffer.Valid
  split : ∃ removed posted, st.Split removed posted

/-- The invariant only looks at the send buffer, the outstanding sends and what
    was transmitted and accepted, and may lose the connection. -/
theorem Inv.congr {st st' : SendSide} (h : st.Inv)
    (hbuf : st'.session.mSendBuffer = st.session.mSendBuffer)
    (hconn : st'.session.mConnected = true → st.session.mConnected = true)
    (hsends : st'.os.sends = st.os.sends) (htrans : st'.transmitted = st.transmitted)
    (hacc : st'.accepted = st.accepted) : st'.Inv := by
  obtain ⟨hv, removed, posted, ha, ht, hle, hs⟩ := h
  refine ⟨hbuf ▸ hv, removed, posted, ?_, ?_, ?_, ?_⟩
  · rw [hacc, hbuf, ha]
  · rw [hbuf, htrans, ht]
  · rw [hbuf]
    exact hle
  · intro hc
    rw [hsends]
    exact hs (hconn hc)

theorem Inv.disconnect {st : SendSide} (h : st.Inv) :
    Inv { st with
      session := (st.session.disconnect st.os).1
      os := (st.session.disconnect st.os).2 } := by
  rcases st.session.disconnect_cases st.os with ⟨k, heq⟩ | ⟨-, k, heq⟩
  · rw [heq]
    exact h.congr rfl id rfl rfl rfl
  · rw [heq]
    exact h.congr rfl nofun rfl rfl rfl

theorem inv_sendRequest {st : SendSide} (h : st.Inv) (pkt : OutPacket) :
    Inv ⟨(st.session.sendRequest pkt st.os).2.1, (st.session.sendRequest pkt st.os).2.2,
      if (st.session.sendRequest pkt st.os).1 then st.accepted ++ pkt.toBytes
      else st.accepted⟩ := by
  have hlen := pkt.length_toBytes
  obtain ⟨hv, hc, -, -⟩ := CircularBuffer.write_spec h.valid pkt.toBytes
    (shortToSize pkt.mSize) (by omega)
  rw [List.take_of_length_le (by omega)] at hc
  obtain ⟨removed, posted, ha, ht, hle, hs⟩ := h.split
  have hle' : posted ≤ st.session.mSendBuffer.contents.length := by
    rw [CircularBuffer.length_contents]
    exact hle
  rcases st.session.sendRequest_cases pkt st.os with
    ⟨hconn, hw, heq⟩ | ⟨hconn, hw, heq⟩ | ⟨-, heq⟩
  · -- accepted: the packet goes behind everything posted
    rw [hw, if_pos rfl] at hc
    rw [heq, if_pos rfl]
    refine ⟨hv, removed, posted, ?_, ?_, ?_, hs⟩
    · show st.accepted ++ pkt.toBytes = removed ++ CircularBuffer.contents _
      rw [ha, hc, List.append_assoc]
    · show st.transmitted = removed ++ (CircularBuffer.contents _).take posted
      rw [hc, List.take_append_of_le_length hle', ht]
    · show posted ≤ CircularBuffer.getStoredSize _
      rw [← CircularBuffer.length_contents, hc, List.length_append]
      omega
  · -- no room: the contents stay, then `Disconnect`
    rw [hw] at hc
    simp only [Bool.false_eq_true, if_false] at hc
    rw [heq]
    have hfull : Inv
        { st with
          session :=
            { st.session with
              mSendBuffer :=
                (st.session.mSendBuffer.write pkt.toBytes (shortToSize pkt.mSize)).2 } } := by
      refine ⟨hv, removed, posted, ?_, ?_, ?_, hs⟩
      · show st.accepted = removed ++ CircularBuffer.contents _
        rw [ha, hc]
      · show st.transmitted = removed ++ (CircularBuffer.contents _).take posted
        rw [hc, ht]
      · show posted ≤ CircularBuffer.getStoredSize _
        rw [← CircularBuffer.length_contents, hc]
        exact hle'
    exact hfull.disconnect
  · rw [heq]
    exact h.congr rfl id rfl rfl rfl

/-- A flush that meets no outstanding send posts the front of the buffer. -/
theorem inv_flush {st : SendSide} (h : st.Inv) (this : SessionId)
    (hok : st.noOverlap .flush) :
    Inv { st with
      session := (st.session.flushClientSend this st.os).1
      os := (st.session.flushClientSend this st.os).2 } := by
  obtain ⟨hpend, hple⟩ := CircularBuffer.contiguous_spec h.valid
  rcases st.session.flushClientSend_cases this st.os with
    ⟨-, heq⟩ | ⟨hconn, hne, k, heq⟩ | ⟨-, -, k, heq⟩
  · rw [heq]
    exact h.congr rfl id rfl rfl rfl
  · obtain ⟨removed, posted, ha, ht, hle, hs⟩ := h.split
    have hsends := hok ⟨hconn, hne⟩
    have hp0 : posted = 0 := by
      have hlens := hs hconn
      rw [hsends] at hlens
      by_contra hp
      rw [if_neg hp] at hlens
      cases hlens
    subst hp0
    rw [heq]
    refine ⟨h.valid, removed, st.session.mSendBuffer.getContiguousBytes, ha, ?_, hple, ?_⟩
    · show ((st.os.wire ++ [SendCall.mk this st.session.pending true]).filter SendCall.ok).flatMap
        SendCall.data = _
      rw [List.filter_append, List.flatMap_append]
      show st.transmitted ++ (st.session.pending ++ []) = _
      rw [ht, List.take_zero, List.append_nil, List.append_nil]
      exact congrArg (removed ++ ·) hpend
    · intro _
      rw [hsends, if_neg hne]
      simp [pending]
  · -- a failed call transmits nothing
    have htrans : (st.os.wire ++ [SendCall.mk this st.session.pending false]).filter SendCall.ok
        = st.os.wire.filter SendCall.ok := by
      rw [List.filter_append]
      exact List.append_nil _
    have hfail : Inv { st with
        os := { st.os with
          asked := k
          wire := st.os.wire ++ [⟨this, st.session.pending, false⟩] } } :=
      h.congr rfl id rfl (congrArg (List.flatMap SendCall.data) htrans) rfl
    rw [heq]
    exact hfail.disconnect

/-- The completion of the one outstanding send removes exactly its bytes. -/
theorem inv_sendCompletion {st : SendSide} (h : st.Inv) {p : SendPost} {rest : List SendPost}
    (hsends : st.os.sends = p :: rest) :
    Inv { st with
      session :=
        (st.session.sendCompletion false p.len { st.os with sends := rest }).1
      os := (st.session.sendCompletion false p.len { st.os with sends := rest }).2 } := by
  obtain ⟨removed, posted, ha, ht, hle, hs⟩ := h.split
  cases hconn : st.session.mConnected with
  | false =>
      have heq : st.session.sendCompletion false p.len { st.os with sends := rest }
          = (st.session.decRefCount, { st.os with sends := rest }) := by
        simp [sendCompletion, decRefCount, hconn]
      rw [heq]
      refine ⟨h.valid, removed, posted, ha, ht, hle, fun hc => ?_⟩
      exact absurd (hconn.symm.trans hc) (by decide)
  | true =>
      have hlens := hs hconn
      rw [hsends, List.map_cons] at hlens
      have hp0 : posted ≠ 0 := by
        rintro rfl
        cases hlens
      rw [if_neg hp0] at hlens
      obtain ⟨hlen, hrest⟩ := List.cons.inj hlens
      have heq : st.session.sendCompletion false p.len { st.os with sends := rest }
          = (st.session.decRefCount.onWriteComplete p.len, { st.os with sends := rest }) := by
        simp [sendCompletion, decRefCount, hconn, hlen, hp0]
      obtain ⟨hv, hc, -⟩ := CircularBuffer.remove_spec h.valid p.len
      rw [heq]
      refine ⟨hv, removed ++ st.session.mSendBuffer.contents.take p.len, 0, ?_, ?_, ?_, ?_⟩
      · show st.accepted = _ ++ (st.session.mSendBuffer.remove p.len).contents
        rw [ha, hc, List.append_assoc, List.take_append_drop]
      · show st.transmitted = _ ++ List.take 0 _
        rw [ht, hlen, List.take_zero, List.append_nil]
      · exact Nat.zero_le _
      · intro _
        rw [if_pos rfl]
        exact hrest

theorem isInvariant (this : SessionId) : (system this).IsInvariant noOverlap Inv where
  init := by
    rintro st ⟨⟨mem, hbuf⟩, -, hsends, hwire, hacc⟩
    refine ⟨hbuf ▸ CircularBuffer.valid_new _ _, [], 0, ?_, ?_, Nat.zero_le _, ?_⟩
    · rw [hacc, hbuf, CircularBuffer.contents_new, List.append_nil]
    · rw [transmitted, hwire]
      rfl
    · intro _
      rw [hsends]
      rfl
  step := by
    intro st e st' _ h hok hstep
    cases e with
    | sendRequest pkt =>
        cases hstep
        exact inv_sendRequest h pkt
    | flush =>
        cases hstep
        exact inv_flush h this hok
    | sendCompletion =>
        simp only [system, step] at hstep
        split at hstep
        · cases hstep
        next p rest hsends =>
          cases hstep
          exact inv_sendCompletion h hsends
    | disconnect =>
        cases hstep
        exact h.disconnect

/-! ## What reaches the wire -/

/-- Only a flush that posts calls `WSASend`, and no event takes accepted bytes
    back. -/
theorem wire_step {this : SessionId} {st st' : SendSide} {e : Event}
    (hstep : step this st e = some st') :
    st.accepted <+: st'.accepted ∧
      (st'.os.wire = st.os.wire ∨
        (e = .flush ∧ st.Posts ∧
          ∃ ok, st'.os.wire = st.os.wire ++ [⟨this, st.session.pending, ok⟩])) := by
  cases e with
  | sendRequest pkt =>
      cases hstep
      refine ⟨?_, Or.inl ?_⟩
      · show st.accepted <+: if _ then st.accepted ++ pkt.toBytes else st.accepted
        split
        · exact List.prefix_append _ _
        · exact List.prefix_rfl
      · rcases st.session.sendRequest_cases pkt st.os with
          ⟨-, -, heq⟩ | ⟨-, -, heq⟩ | ⟨-, heq⟩
        · rw [heq]
        · rw [heq]
          exact wire_disconnect _ _
        · rw [heq]
  | flush =>
      cases hstep
      refine ⟨List.prefix_rfl, ?_⟩
      rcases st.session.flushClientSend_cases this st.os with
        ⟨-, heq⟩ | ⟨hconn, hne, k, heq⟩ | ⟨hconn, hne, k, heq⟩
      · rw [heq]
        exact Or.inl rfl
      · rw [heq]
        exact Or.inr ⟨rfl, ⟨hconn, hne⟩, true, rfl⟩
      · rw [heq]
        exact Or.inr ⟨rfl, ⟨hconn, hne⟩, false, wire_disconnect _ _⟩
  | sendCompletion =>
      simp only [step] at hstep
      split at hstep
      · cases hstep
      next p rest hsends =>
        cases hstep
        refine ⟨List.prefix_rfl, Or.inl ?_⟩
        rcases st.session.sendCompletion_cases false p.len { st.os with sends := rest } with
          heq | heq | heq
        · rw [heq]
        · rw [heq]
          exact wire_disconnect _ _
        · rw [heq]
  | disconnect =>
      cases hstep
      exact ⟨List.prefix_rfl, Or.inl (wire_disconnect _ _)⟩

/-- With no send outstanding and none failed, what was handed over is what the
    buffer has dropped. -/
theorem Inv.handed_append_pending {st : SendSide} (h : st.Inv) (hp : st.Posts)
    (hsends : st.os.sends = []) (hall : ∀ c ∈ st.os.wire, c.ok = true) :
    st.handed ++ st.session.pending <+: st.accepted := by
  obtain ⟨removed, posted, ha, ht, -, hs⟩ := h.split
  have hp0 : posted = 0 := by
    have hlens := hs hp.1
    rw [hsends] at hlens
    by_contra hne
    rw [if_neg hne] at hlens
    cases hlens
  have hhanded : st.handed = removed := by
    rw [hp0, List.take_zero, List.append_nil, transmitted,
      List.filter_eq_self.mpr hall] at ht
    exact ht
  have hpend : st.session.pending
      = st.session.mSendBuffer.contents.take st.session.mSendBuffer.getContiguousBytes :=
    (CircularBuffer.contiguous_spec h.valid).1
  rw [hhanded, ha, hpend]
  exact List.prefix_append_right_inj _ |>.mpr (List.take_prefix _ _)

theorem isInvariant_handed (this : SessionId) :
    (system this).IsInvariant noRetry (fun st => st.handed <+: st.accepted) where
  init := by
    rintro st ⟨-, -, -, hwire, -⟩
    rw [handed, hwire]
    exact List.nil_prefix
  step := by
    intro st e st' hr hpre hok hstep
    have hinv := (isInvariant this).holds (hr.mono fun _ _ => noOverlap_of_noRetry)
    obtain ⟨hacc, hwire | ⟨rfl, hp, ok, hwire⟩⟩ := wire_step hstep
    · rw [handed, hwire]
      exact hpre.trans hacc
    · obtain ⟨hsends, hall⟩ := hok hp
      have hnext := hinv.handed_append_pending hp hsends hall
      rw [handed, hwire, List.flatMap_append]
      show st.handed ++ (st.session.pending ++ []) <+: _
      rw [List.append_nil]
      exact hnext.trans hacc

/-- **Nothing twice, nothing skipped.**  In every run whose flushes meet no
    outstanding send, what was transmitted is a prefix of what was accepted;
    and so is what was handed over at all, when no flush follows a failed call
    either. -/
theorem transmitted_prefix_accepted (this : SessionId) (st : SendSide) :
    ((system this).ReachableBy noOverlap st → st.transmitted <+: st.accepted) ∧
      ((system this).ReachableBy noRetry st → st.handed <+: st.accepted) := by
  refine ⟨fun hr => ?_, fun hr => (isInvariant_handed this).holds hr⟩
  obtain ⟨-, removed, posted, ha, ht, -, -⟩ := (isInvariant this).holds hr
  rw [ha, ht]
  exact List.prefix_append_right_inj _ |>.mpr (List.take_prefix _ _)

/-- A session right after its connection, on a system where every call
    succeeds. -/
def fresh : SendSide where
  session := { ClientSession.new 1 (fun _ => 0) (fun _ => 0) with mConnected := true }
  os := ⟨fun _ => true, 0, [1], [], [], []⟩
  accepted := []

theorem start_fresh : Start fresh := ⟨⟨_, rfl⟩, rfl, rfl, rfl, rfl⟩

/-- Two packets, the first one's send completed before the second flush. -/
theorem transmitted_prefix_accepted_twice :
    ∃ st, (system 0).ReachableBy noRetry st ∧ st.transmitted.length = 32 ∧
      st.transmitted <+: st.accepted ∧ st.handed <+: st.accepted := by
  have h₀ : (system 0).ReachableBy noRetry fresh := .init start_fresh
  have h₁ := h₀.step (a := Event.sendRequest (.moveBroadcastResult ⟨7, 1, 2⟩)) trivial rfl
  have h₂ := h₁.step (a := Event.flush) (fun _ => ⟨rfl, nofun⟩) rfl
  have h₃ := h₂.step (a := Event.sendCompletion) trivial rfl
  have h₄ := h₃.step (a := Event.sendRequest (.moveBroadcastResult ⟨7, 1, 2⟩)) trivial rfl
  have h₅ := h₄.step (a := Event.flush) (fun _ => ⟨rfl, by decide⟩) rfl
  exact ⟨_, h₅, rfl,
    (transmitted_prefix_accepted 0 _).1 (h₅.mono fun _ _ => noOverlap_of_noRetry),
    (transmitted_prefix_accepted 0 _).2 h₅⟩

/-- Two flushes before the first completion hand the packet over twice. -/
theorem flush_twice :
    ∃ st, (system 0).Reachable st ∧ st.session.mConnected = true ∧
      ¬ st.handed <+: st.accepted ∧ ¬ st.transmitted <+: st.accepted := by
  have hrun : ∃ st, (system 0).run fresh
      [.sendRequest (.moveBroadcastResult ⟨7, 1, 2⟩), .flush, .flush] = some st ∧
      st.session.mConnected = true ∧ st.handed.length = 32 ∧ st.transmitted.length = 32 ∧
      st.accepted.length = 16 := ⟨_, rfl, rfl, rfl, rfl, rfl⟩
  obtain ⟨st, hrun, hconn, hh, ht, ha⟩ := hrun
  refine ⟨st, .run (.init start_fresh) hrun, hconn, fun h => ?_, fun h => ?_⟩
  · have := h.length_le
    omega
  · have := h.length_le
    omega

end SendSide
end ClientSession
end EasyGameServer
