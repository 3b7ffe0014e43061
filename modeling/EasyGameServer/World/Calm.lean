/-
  EasyGameServer.World.Calm

  The frame rule of sending.  Whatever `Disconnect`, `SendRequest` and
  `Broadcast` do, to however many sessions, they create and delete no session,
  post and complete no I/O, schedule nothing and push no job; a session can
  only lose its connection, and a socket is closed only by a session that
  loses its connection.  `Calm` says so once, and composes.
-/

import EasyGameServer.World

namespace EasyGameServer

open Lib

/-- What nobody but the session's own I/O and tasks changes. -/
structure ClientSession.Keeps (s s' : ClientSession) : Prop where
  mSocket : s'.mSocket = s.mSocket
  mPlayerId : s'.mPlayerId = s.mPlayerId
  mRefCount : s'.mRefCount = s.mRefCount
  mRecvBuffer : s'.mRecvBuffer = s.mRecvBuffer
  mConnected : s'.mConnected = true → s.mConnected = true

namespace ClientSession

theorem Keeps.refl (s : ClientSession) : s.Keeps s := ⟨rfl, rfl, rfl, rfl, id⟩

theorem Keeps.trans {s s' s'' : ClientSession} (h : s.Keeps s') (h' : s'.Keeps s'') :
    s.Keeps s'' :=
  ⟨h'.mSocket.trans h.mSocket, h'.mPlayerId.trans h.mPlayerId, h'.mRefCount.trans h.mRefCount,
    h'.mRecvBuffer.trans h.mRecvBuffer, fun hc => h.mConnected (h'.mConnected hc)⟩

/-- One session sends or disconnects. -/
structure Fades (s : ClientSession) (os : Os) (r : ClientSession × Os) : Prop where
  keeps : s.Keeps r.1
  recvs : r.2.recvs = os.recvs
  sends : r.2.sends = os.sends
  opened : r.2.opened = os.opened ∨
    (s.mConnected = true ∧ r.1.mConnected = false ∧ r.2.opened = os.opened.erase s.mSocket)

theorem fades_refl (s : ClientSession) (os : Os) : s.Fades os (s, os) :=
  ⟨.refl s, rfl, rfl, Or.inl rfl⟩

theorem fades_disconnect (s : ClientSession) (os : Os) : s.Fades os (s.disconnect os) := by
  rcases s.disconnect_cases os with ⟨k, heq⟩ | ⟨hc, k, heq⟩
  · rw [heq]
    exact ⟨.refl s, rfl, rfl, Or.inl rfl⟩
  · rw [heq]
    exact ⟨⟨rfl, rfl, rfl, rfl, nofun⟩, rfl, rfl, Or.inr ⟨hc, rfl, rfl⟩⟩

theorem fades_sendRequest (s : ClientSession) (pkt : OutPacket) (os : Os) :
    s.Fades os (s.sendRequest pkt os).2 := by
  rcases s.sendRequest_cases pkt os with ⟨-, -, heq⟩ | ⟨-, -, heq⟩ | ⟨-, heq⟩
  · rw [heq]
    exact ⟨⟨rfl, rfl, rfl, rfl, id⟩, rfl, rfl, Or.inl rfl⟩
  · rw [heq]
    obtain ⟨⟨hs, hp, hr, hb, hc⟩, hrecvs, hsends, hopened⟩ := fades_disconnect
      { s with mSendBuffer := (s.mSendBuffer.write pkt.toBytes (shortToSize pkt.mSize)).2 } os
    exact ⟨⟨hs, hp, hr, hb, hc⟩, hrecvs, hsends, hopened⟩
  · rw [heq]
    exact fades_refl s os

end ClientSession

namespace World

structure Calm (w w' : World) : Prop where
  sessions : ∀ i, (w.sessions i).Keeps (w'.sessions i)
  next : w'.next = w.next
  deleted : w'.deleted = w.deleted
  mClientList : w'.mClientList = w.mClientList
  scheduler : w'.scheduler = w.scheduler
  recvs : w'.os.recvs = w.os.recvs
  sends : w'.os.sends = w.os.sends
  outbox : w'.outbox = w.outbox
  pushed : w'.pushed = w.pushed
  opened : ∀ k, k ∈ w'.os.opened → k ∈ w.os.opened
  closed : ∀ k, k ∈ w.os.opened → k ∉ w'.os.opened → ∃ i,
    (w.sessions i).mSocket = k ∧ (w.sessions i).mConnected = true ∧
      (w'.sessions i).mConnected = false
  trace : ∃ ns, w'.trace = w.trace ++ ns ∧ ∀ n ∈ ns, ∃ i pkt, n = .broadcast i pkt

namespace Calm

theorem refl (w : World) : w.Calm w where
  sessions _ := .refl _
  next := rfl
  deleted := rfl
  mClientList := rfl
  scheduler := rfl
  recvs := rfl
  sends := rfl
  outbox := rfl
  pushed := rfl
  opened _ h := h
  closed _ h h' := absurd h h'
  trace := ⟨[], (List.append_nil _).symm, fun _ h => absurd h List.not_mem_nil⟩

theorem trans {w w' w'' : World} (h : w.Calm w') (h' : w'.Calm w'') : w.Calm w'' where
  sessions i := (h.sessions i).trans (h'.sessions i)
  next := h'.next.trans h.next
  deleted := h'.deleted.trans h.deleted
  mClientList := h'.mClientList.trans h.mClientList
  scheduler := h'.scheduler.trans h.scheduler
  recvs := h'.recvs.trans h.recvs
  sends := h'.sends.trans h.sends
  outbox := h'.outbox.trans h.outbox
  pushed := h'.pushed.trans h.pushed
  opened k hk := h.opened k (h'.opened k hk)
  closed := by
    intro k hk hk''
    by_cases hk' : k ∈ w'.os.opened
    · obtain ⟨i, hsock, hconn, hdisc⟩ := h'.closed k hk' hk''
      exact ⟨i, (h.sessions i).mSocket.symm.trans hsock, (h.sessions i).mConnected hconn, hdisc⟩
    · obtain ⟨i, hsock, hconn, hdisc⟩ := h.closed k hk hk'
      refine ⟨i, hsock, hconn, eq_false_of_ne_true (fun hc => ?_)⟩
      exact absurd ((h'.sessions i).mConnected hc) (by simp [hdisc])
  trace := by
    obtain ⟨ns, hns, hall⟩ := h.trace
    obtain ⟨ns', hns', hall'⟩ := h'.trace
    refine ⟨ns ++ ns', by rw [hns', hns, List.append_assoc], fun n hn => ?_⟩
    rcases List.mem_append.mp hn with hn | hn
    · exact hall n hn
    · exact hall' n hn

end Calm

@[simp] theorem sessions_put_self (w : World) (this : SessionId) (r : ClientSession × Os) :
    (w.put this r).sessions this = r.1 := if_pos rfl

theorem sessions_put_of_ne (w : World) {this i : SessionId} (r : ClientSession × Os)
    (h : i ≠ this) : (w.put this r).sessions i = w.sessions i := if_neg h

/-- The later of two stores of one session counts. -/
@[simp] theorem put_put (w : World) (this : SessionId) (r r' : ClientSession × Os) :
    (w.put this r).put this r' = w.put this r' := by
  simp only [put, World.mk.injEq, and_true]
  funext i
  by_cases h : i = this
  · rw [if_pos h, if_pos h]
  · rw [if_neg h, if_neg h, if_neg h]

@[simp] theorem sessions_modify_self (w : World) (this : SessionId)
    (f : ClientSession → ClientSession) :
    (w.modify this f).sessions this = f (w.sessions this) := sessions_put_self ..

theorem calm_put {w : World} {this : SessionId} {r : ClientSession × Os}
    (h : (w.sessions this).Fades w.os r) : w.Calm (w.put this r) := by
  refine ⟨?_, rfl, rfl, rfl, rfl, h.recvs, h.sends, rfl, rfl, ?_, ?_, ?_⟩
  · intro i
    by_cases hi : i = this
    · subst hi
      rw [sessions_put_self]
      exact h.keeps
    · rw [sessions_put_of_ne w r hi]
      exact .refl _
  · intro k hk
    have hk' : k ∈ r.2.opened := hk
    rcases h.opened with heq | ⟨-, -, heq⟩
    · rwa [heq] at hk'
    · rw [heq] at hk'
      exact List.mem_of_mem_erase hk'
  · intro k hk hk'
    have hk'' : k ∉ r.2.opened := hk'
    rcases h.opened with heq | ⟨hconn, hdisc, heq⟩
    · rw [heq] at hk''
      exact absurd hk hk''
    · refine ⟨this, ?_, hconn, by rw [sessions_put_self]; exact hdisc⟩
      by_contra hne
      rw [heq] at hk''
      exact hk'' ((List.mem_erase_of_ne (fun heq => hne heq.symm)).mpr hk)
  · exact (Calm.refl w).trace

theorem calm_modify (w : World) (this : SessionId) {f : ClientSession → ClientSession}
    (h : (w.sessions this).Keeps (f (w.sessions this))) : w.Calm (w.modify this f) :=
  calm_put ⟨h, rfl, rfl, Or.inl rfl⟩

theorem calm_note (w : World) (this : SessionId) (pkt : OutPacket) :
    w.Calm (w.note (.broadcast this pkt)) :=
  { Calm.refl w with
    trace := ⟨_, rfl, fun _ hn => ⟨this, pkt, List.mem_singleton.mp hn⟩⟩ }

theorem calm_disconnect (w : World) (this : SessionId) : w.Calm (w.disconnect this) :=
  calm_put (ClientSession.fades_disconnect _ _)

theorem calm_sendRequest (w : World) (this : SessionId) (pkt : OutPacket) :
    w.Calm (w.sendRequest this pkt).2 :=
  calm_put (ClientSession.fades_sendRequest _ _ _)

/-- A loop over the client list whose body is calm is calm. -/
theorem calm_foldl {f : World → SOCKET × SessionId → World} (h : ∀ (w : World) it, w.Calm (f w it))
    (its : List (SOCKET × SessionId)) (w : World) : w.Calm (its.foldl f w) := by
  induction its generalizing w with
  | nil => exact .refl w
  | cons it its ih => exact (h w it).trans (ih (f w it))

theorem calm_broadcastPacket (w : World) (sender : SessionId) (pkt : OutPacket) :
    w.Calm (w.broadcastPacket sender pkt) := by
  refine calm_foldl (fun w it => ?_) _ w
  by_cases h : sender = it.2
  · rw [if_pos h]
    exact .refl w
  · rw [if_neg h]
    exact calm_sendRequest w it.2 pkt

theorem calm_broadcast (w : World) (this : SessionId) (pkt : OutPacket) :
    w.Calm (w.broadcast this pkt).2 := by
  have hsend := calm_sendRequest w this pkt
  by_cases hok : (w.sendRequest this pkt).1 = true
  · by_cases hconn : ((w.sendRequest this pkt).2.sessions this).mConnected = true
    · simp only [broadcast, hok, hconn, if_true]
      exact (hsend.trans (calm_note _ this pkt)).trans (calm_broadcastPacket _ this pkt)
    · simp only [broadcast, hok, hconn, if_true]
      exact hsend
  · simp only [broadcast, hok]
    exact hsend

/-- The packets the handlers have read from a session, oldest first. -/
def parsedBy (w : World) (this : SessionId) : List (List UInt8) :=
  w.trace.filterMap fun
    | .parsed i _ bytes => if i = this then some bytes else none
    | _ => none

theorem Calm.parsedBy {w w' : World} (h : w.Calm w') (this : SessionId) :
    w'.parsedBy this = w.parsedBy this := by
  obtain ⟨ns, hns, hall⟩ := h.trace
  have hnil : ns.filterMap (fun
      | Note.parsed i _ bytes => if i = this then some bytes else none
      | _ => none) = ([] : List (List UInt8)) := by
    rw [List.filterMap_eq_nil_iff]
    intro n hn
    obtain ⟨i, pkt, rfl⟩ := hall n hn
    rfl
  rw [World.parsedBy, hns, List.filterMap_append, hnil, List.append_nil]
  rfl

/-- What the handlers do with a packet they relay. -/
theorem calm_relay (w : World) (this : SessionId) (pkt : OutPacket) :
    w.Calm (w.relay this pkt) := by
  have hcast := calm_broadcast w this pkt
  unfold relay
  split
  · exact hcast
  · exact hcast.trans (calm_disconnect _ this)

end World
end EasyGameServer
