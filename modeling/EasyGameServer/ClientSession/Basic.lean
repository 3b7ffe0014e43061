/-
  EasyGameServer.ClientSession.Basic

  The parts of `ClientSession.h` / `ClientSession.cpp` that touch one session
  and the operating system only; what a session does to other sessions, to the
  scheduler and to the database is in `World`.

  The system calls that can fail take their outcome from `Os.answers`, so that
  every pattern of failures is a possible `Os`.  A posted `WSARecv` or
  `WSASend` stays listed until its completion routine is called.  The peer's
  address, which is only printed, is left out.
-/

import EasyGameServer.CircularBuffer.Valid
import EasyGameServer.PacketType

namespace EasyGameServer

open Lib

def BUFSIZE : Nat := 1024 * 10

abbrev SOCKET := Nat

/-- The name of a session object; no two objects ever share one. -/
abbrev SessionId := Nat

/-! ## Operating system -/

/-- A `WSARecv` whose completion is outstanding. -/
structure RecvPost where
  owner : SessionId
  buf : Nat
  len : Nat
deriving DecidableEq

/-- A `WSASend` whose completion is outstanding. -/
structure SendPost where
  owner : SessionId
  len : Nat
deriving DecidableEq

/-- A call of `WSASend`: the bytes handed over, and whether it succeeded or
    pends. -/
structure SendCall where
  owner : SessionId
  data : List UInt8
  ok : Bool
deriving DecidableEq

structure Os where
  answers : Nat → Bool
  asked : Nat
  opened : List SOCKET
  recvs : List RecvPost
  sends : List SendPost
  wire : List SendCall

namespace Os

/-- The outcome of the next system call. -/
def ask (os : Os) : Bool × Os :=
  (os.answers os.asked, { os with asked := os.asked + 1 })

def closesocket (os : Os) (sock : SOCKET) : Os :=
  { os with opened := os.opened.erase sock }

def wsaRecv (os : Os) (owner : SessionId) (buf len : Nat) : Bool × Os :=
  if os.ask.1 then
    (true, { os.ask.2 with recvs := os.recvs ++ [⟨owner, buf, len⟩] })
  else
    (false, os.ask.2)

def wsaSend (os : Os) (owner : SessionId) (data : List UInt8) : Bool × Os :=
  if os.ask.1 then
    (true,
      { os.ask.2 with
        sends := os.sends ++ [⟨owner, data.length⟩]
        wire := os.wire ++ [⟨owner, data, true⟩] })
  else
    (false, { os.ask.2 with wire := os.wire ++ [⟨owner, data, false⟩] })

end Os

/-! ## Sessions -/

structure ClientSession where
  mPosX : CFloat
  mPosY : CFloat
  mPlayerName : CString maxNameLen
  mConnected : Bool
  mLogon : Bool
  mSocket : SOCKET
  mPlayerId : Int32
  mSendBuffer : CircularBuffer
  mRecvBuffer : CircularBuffer
  mRefCount : Int

namespace ClientSession

/-- The constructor; the two memories are what the buffers' arrays contain. -/
def new (sock : SOCKET) (sendMem recvMem : Nat → UInt8) : ClientSession where
  mPosX := 0
  mPosY := 0
  mPlayerName := .zeros maxNameLen maxNameLen_pos
  mConnected := false
  mLogon := false
  mSocket := sock
  mPlayerId := -1
  mSendBuffer := .new BUFSIZE sendMem
  mRecvBuffer := .new BUFSIZE recvMem
  mRefCount := 0

def incRefCount (s : ClientSession) : ClientSession :=
  { s with mRefCount := s.mRefCount + 1 }

def decRefCount (s : ClientSession) : ClientSession :=
  { s with mRefCount := s.mRefCount - 1 }

def setPosition (s : ClientSession) (x y : CFloat) : ClientSession :=
  { s with mPosX := x, mPosY := y }

/-- `PostRecv`: hand the free window of the receive buffer to the system. -/
def postRecv (s : ClientSession) (this : SessionId) (os : Os) : Bool × ClientSession × Os :=
  if s.mConnected then
    let free := s.mRecvBuffer.getFreeSpaceSize
    let s' := { s with mRecvBuffer := free.2 }
    let posted := os.wsaRecv this free.2.getBuffer free.1
    if posted.1 then (true, s'.incRefCount, posted.2) else (false, s', posted.2)
  else
    (false, s, os)

def onConnect (s : ClientSession) (this : SessionId) (os : Os) : Bool × ClientSession × Os :=
  postRecv { s with mConnected := true } this os

/-- `Disconnect`.  When the linger option cannot be set the session stays as
    it is, connected. -/
def disconnect (s : ClientSession) (os : Os) : ClientSession × Os :=
  if s.mConnected then
    if os.ask.1 then
      ({ s with mConnected := false }, os.ask.2.closesocket s.mSocket)
    else
      (s, os.ask.2)
  else
    (s, os)

/-- `SendRequest`: buffer a packet, or disconnect when there is no room. -/
def sendRequest (s : ClientSession) (pkt : OutPacket) (os : Os) : Bool × ClientSession × Os :=
  if s.mConnected then
    let written := s.mSendBuffer.write pkt.toBytes (shortToSize pkt.mSize)
    let s' := { s with mSendBuffer := written.2 }
    if written.1 then (true, s', os) else (false, s'.disconnect os)
  else
    (false, s, os)

/-- `SendFlush`: hand the first region of the send buffer to the system. -/
def sendFlush (s : ClientSession) (this : SessionId) (os : Os) : Bool × ClientSession × Os :=
  if s.mConnected then
    if s.mSendBuffer.getContiguousBytes = 0 then
      (true, s, os)
    else
      let data := slice s.mSendBuffer.mBuffer (s.mSendBuffer.getBufferStart.getD 0)
        s.mSendBuffer.getContiguousBytes
      let sent := os.wsaSend this data
      if sent.1 then (true, s.incRefCount, sent.2) else (false, s, sent.2)
  else
    (false, s, os)

/-- What `FlushClientSend` does with one session. -/
def flushClientSend (s : ClientSession) (this : SessionId) (os : Os) : ClientSession × Os :=
  let flushed := s.sendFlush this os
  if flushed.1 then flushed.2 else flushed.2.1.disconnect flushed.2.2

def onWriteComplete (s : ClientSession) (len : Nat) : ClientSession :=
  { s with mSendBuffer := s.mSendBuffer.remove len }

/-- `SendCompletion`, after the completion has left the system's list. -/
def sendCompletion (s : ClientSession) (dwError : Bool) (cbTransferred : Nat) (os : Os) :
    ClientSession × Os :=
  let s' := s.decRefCount
  if s'.mConnected then
    if dwError ∨ cbTransferred = 0 then
      s'.disconnect os
    else
      (s'.onWriteComplete cbTransferred, os)
  else
    (s', os)

/-! ## What the operations can do -/

/-- `Disconnect` changes nothing, or it ends the connection and closes the
    socket. -/
theorem disconnect_cases (s : ClientSession) (os : Os) :
    (∃ k, s.disconnect os = (s, { os with asked := k })) ∨
      (s.mConnected = true ∧ ∃ k, s.disconnect os =
        ({ s with mConnected := false },
          { os with asked := k, opened := os.opened.erase s.mSocket })) := by
  unfold disconnect
  by_cases hc : s.mConnected = true
  · rw [if_pos hc]
    split
    · exact Or.inr ⟨hc, _, rfl⟩
    · exact Or.inl ⟨_, rfl⟩
  · rw [if_neg hc]
    exact Or.inl ⟨os.asked, rfl⟩

@[simp] theorem wire_disconnect (s : ClientSession) (os : Os) :
    (s.disconnect os).2.wire = os.wire := by
  rcases s.disconnect_cases os with ⟨k, heq⟩ | ⟨-, k, heq⟩ <;> rw [heq]

/-- `SendRequest` buffers the packet, or does nothing to the buffered bytes
    and then perhaps disconnects. -/
theorem sendRequest_cases (s : ClientSession) (pkt : OutPacket) (os : Os) :
    (s.mConnected = true ∧
        s.mSendBuffer.write pkt.toBytes (shortToSize pkt.mSize) =
          (true, (s.mSendBuffer.write pkt.toBytes (shortToSize pkt.mSize)).2) ∧
        s.sendRequest pkt os = (true,
          { s with
            mSendBuffer := (s.mSendBuffer.write pkt.toBytes (shortToSize pkt.mSize)).2 }, os)) ∨
      (s.mConnected = true ∧
        s.mSendBuffer.write pkt.toBytes (shortToSize pkt.mSize) =
          (false, (s.mSendBuffer.write pkt.toBytes (shortToSize pkt.mSize)).2) ∧
        s.sendRequest pkt os = (false, disconnect
          { s with
            mSendBuffer := (s.mSendBuffer.write pkt.toBytes (shortToSize pkt.mSize)).2 } os)) ∨
      (s.mConnected = false ∧ s.sendRequest pkt os = (false, s, os)) := by
  unfold sendRequest
  cases hc : s.mConnected with
  | false => exact Or.inr (Or.inr ⟨rfl, rfl⟩)
  | true =>
      cases hw : (s.mSendBuffer.write pkt.toBytes (shortToSize pkt.mSize)).1 with
      | true => exact Or.inl ⟨rfl, Prod.ext hw rfl, by simp [hw]⟩
      | false => exact Or.inr (Or.inl ⟨rfl, Prod.ext hw rfl, by simp [hw]⟩)

/-- `PostRecv` does nothing without a connection; else it chooses the window,
    and posts it unless the call fails. -/
theorem postRecv_cases (s : ClientSession) (this : SessionId) (os : Os) :
    (s.mConnected = false ∧ s.postRecv this os = (false, s, os)) ∨
      (s.mConnected = true ∧ ∃ k, s.postRecv this os =
        (true, incRefCount { s with mRecvBuffer := s.mRecvBuffer.getFreeSpaceSize.2 },
          { os with
            asked := k
            recvs := os.recvs ++ [⟨this, s.mRecvBuffer.getFreeSpaceSize.2.getBuffer,
              s.mRecvBuffer.getFreeSpaceSize.1⟩] })) ∨
      (s.mConnected = true ∧ ∃ k, s.postRecv this os =
        (false, { s with mRecvBuffer := s.mRecvBuffer.getFreeSpaceSize.2 },
          { os with asked := k })) := by
  unfold postRecv
  cases hc : s.mConnected with
  | false => exact Or.inl ⟨rfl, rfl⟩
  | true =>
      cases hask : os.answers os.asked with
      | true =>
          refine Or.inr (Or.inl ⟨rfl, os.asked + 1, ?_⟩)
          simp [Os.wsaRecv, Os.ask, hask]
      | false =>
          refine Or.inr (Or.inr ⟨rfl, os.asked + 1, ?_⟩)
          simp [Os.wsaRecv, Os.ask, hask]

/-- The bytes a flush hands over. -/
def pending (s : ClientSession) : List UInt8 :=
  slice s.mSendBuffer.mBuffer (s.mSendBuffer.getBufferStart.getD 0)
    s.mSendBuffer.getContiguousBytes

/-- A flush does nothing, posts the pending bytes, or fails to and then
    perhaps disconnects. -/
theorem flushClientSend_cases (s : ClientSession) (this : SessionId) (os : Os) :
    ((s.mConnected = false ∨ s.mSendBuffer.getContiguousBytes = 0) ∧
        s.flushClientSend this os = (s, os)) ∨
      (s.mConnected = true ∧ s.mSendBuffer.getContiguousBytes ≠ 0 ∧ ∃ k,
        s.flushClientSend this os = (s.incRefCount,
          { os with
            asked := k
            sends := os.sends ++ [⟨this, s.pending.length⟩]
            wire := os.wire ++ [⟨this, s.pending, true⟩] })) ∨
      (s.mConnected = true ∧ s.mSendBuffer.getContiguousBytes ≠ 0 ∧ ∃ k,
        s.flushClientSend this os = s.disconnect
          { os with
            asked := k
            wire := os.wire ++ [⟨this, s.pending, false⟩] }) := by
  unfold flushClientSend sendFlush
  cases hc : s.mConnected with
  | false =>
      refine Or.inl ⟨Or.inl rfl, ?_⟩
      simp [disconnect, hc]
  | true =>
      by_cases hz : s.mSendBuffer.getContiguousBytes = 0
      · refine Or.inl ⟨Or.inr hz, ?_⟩
        simp [hz]
      · cases hask : os.answers os.asked with
        | true =>
            refine Or.inr (Or.inl ⟨rfl, hz, os.asked + 1, ?_⟩)
            simp [hz, Os.wsaSend, hask, Os.ask, pending]
        | false =>
            refine Or.inr (Or.inr ⟨rfl, hz, os.asked + 1, ?_⟩)
            simp [hz, Os.wsaSend, hask, Os.ask, pending]

theorem sendCompletion_cases (s : ClientSession) (dwError : Bool) (cbTransferred : Nat)
    (os : Os) :
    s.sendCompletion dwError cbTransferred os = (s.decRefCount, os) ∨
      s.sendCompletion dwError cbTransferred os = s.decRefCount.disconnect os ∨
      s.sendCompletion dwError cbTransferred os =
        (s.decRefCount.onWriteComplete cbTransferred, os) := by
  by_cases hc : s.decRefCount.mConnected = true
  · by_cases herr : dwError = true ∨ cbTransferred = 0
    · exact Or.inr (Or.inl ((if_pos hc).trans (if_pos herr)))
    · exact Or.inr (Or.inr ((if_pos hc).trans (if_neg herr)))
  · exact Or.inl (if_neg hc)

end ClientSession
end EasyGameServer
