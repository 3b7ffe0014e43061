/-
  EasyGameServer.PacketHandling

  The receive path of `PacketHandling.cpp`: the handlers, the table they are
  registered in, the loop of `OnRead` and the two ends of `RecvCompletion`.

  A handler answers `none` when the C runtime ends the process, which
  `strcpy_s` makes it do on a chat text without a terminator.  One iteration of
  the loop is `onReadBody`; `onReadBody_cases` lists everything it can do, and
  nothing after it unfolds a handler.
-/

import EasyGameServer.World.Calm
import EasyGameServer.Lib.Loop

namespace EasyGameServer

open Lib

/-- The kernel stores the bytes of a receive at the place it was posted with. -/
def ClientSession.arrive (s : ClientSession) (buf : Nat) (data : List UInt8) : ClientSession :=
  { s with
    mRecvBuffer := { s.mRecvBuffer with mBuffer := memcpy s.mRecvBuffer.mBuffer buf data } }

namespace World

/-! ## Handlers -/

/-- The world after a handler has read its packet. -/
def consumed (w : World) (this : SessionId) (type : PacketTypes) (bytes : List UInt8)
    (rest : CircularBuffer) : World :=
  (w.modify this (fun s => { s with mRecvBuffer := rest })).note (.parsed this type bytes)

/-- `ParsePacket`, into a packet of this type and size. -/
def parsePacket (w : World) (this : SessionId) (type : PacketTypes) (size : Nat) :
    Option (List UInt8 × World) :=
  ((w.sessions this).mRecvBuffer.read size).map
    (fun r => (r.1, w.consumed this type r.1 r.2))

/-- The job of a login request. -/
def loadJob (sock : SOCKET) (inPacket : LoginRequest) : DatabaseJobContext where
  mSockKey := sock
  data := .load { mPlayerId := inPacket.mPlayerId }

/-- How every registered handler starts: parse, and return when that fails. -/
def withPacket (w : World) (this : SessionId) (type : PacketTypes) (size : Nat)
    (body : List UInt8 → World → Option World) : Option World :=
  match w.parsePacket this type size with
  | none => some w
  | some (bytes, w') => body bytes w'

def handlerPktCsLogin (this : SessionId) (w : World) : Option World :=
  w.withPacket this .pktCsLogin sizeofLoginRequest fun bytes w =>
    some (w.pushDatabaseJobRequest this (loadJob (w.sessions this).mSocket (.ofBytes bytes)))

def handlerPktCsChat (this : SessionId) (w : World) : Option World :=
  w.withPacket this .pktCsChat sizeofChatBroadcastRequest fun bytes w =>
    let inPacket := ChatBroadcastRequest.ofBytes bytes
    if inPacket.mPlayerId ≠ (w.sessions this).mPlayerId then
      some w
    else
      match strcpyS (.zeros maxChatLen maxChatLen_pos) inPacket.mChat.bytes with
      | none => none
      | some chat =>
          let name := (CString.zeros maxNameLen maxNameLen_pos).copy (w.sessions this).mPlayerName
          some (w.relay this (.chatBroadcastResult ⟨inPacket.mPlayerId, name, chat⟩))

def handlerPktCsMove (this : SessionId) (w : World) : Option World :=
  w.withPacket this .pktCsMove sizeofMoveRequest fun bytes w =>
    let inPacket := MoveRequest.ofBytes bytes
    if inPacket.mPlayerId ≠ (w.sessions this).mPlayerId then
      some w
    else
      let w := w.modify this (fun s => s.setPosition inPacket.mPosX inPacket.mPosY)
      some (w.relay this
        (.moveBroadcastResult ⟨inPacket.mPlayerId, inPacket.mPosX, inPacket.mPosY⟩))

def defaultHandler (this : SessionId) (w : World) : Option World := some (w.disconnect this)

/-- The handlers registered with `REGISTER_HANDLER`. -/
inductive Registered where
  | login
  | chat
  | move
deriving DecidableEq

namespace Registered

def type : Registered → PacketTypes
  | .login => .pktCsLogin
  | .chat => .pktCsChat
  | .move => .pktCsMove

/-- The size of the packet the handler parses into. -/
def size : Registered → Nat
  | .login => sizeofLoginRequest
  | .chat => sizeofChatBroadcastRequest
  | .move => sizeofMoveRequest

def handler : Registered → SessionId → World → Option World
  | .login => handlerPktCsLogin
  | .chat => handlerPktCsChat
  | .move => handlerPktCsMove

theorem size_pos (r : Registered) : 0 < r.size := by
  cases r <;> decide

theorem size_le (r : Registered) : r.size ≤ sizeofChatBroadcastRequest := by
  cases r <;> decide

theorem sizeofPacketHeader_le_size (r : Registered) : sizeofPacketHeader ≤ r.size := by
  cases r <;> decide

/-- The packet is a chat in the session's name whose text has no terminator. -/
def Crashes (r : Registered) (pid : Int32) (bytes : List UInt8) : Prop :=
  r = .chat ∧ (ChatBroadcastRequest.ofBytes bytes).mPlayerId = pid ∧
    (0 : UInt8) ∉ (ChatBroadcastRequest.ofBytes bytes).mChat.bytes

end Registered

/-- The handler registered for a type, if any. -/
def registered? (mType : Int16) : Option Registered :=
  if mType = PacketTypes.pktCsLogin.value then some .login
  else if mType = PacketTypes.pktCsChat.value then some .chat
  else if mType = PacketTypes.pktCsMove.value then some .move
  else none

/-- `HandlerTable[mType]`, as the static initializers leave it. -/
def handlerTable (mType : Int16) : SessionId → World → Option World :=
  match registered? mType with
  | none => defaultHandler
  | some r => r.handler

/-! ## The loop of `OnRead` -/

/-- One iteration; it leaves with the world, or with `none` when the process
    ends. -/
def onReadBody (this : SessionId) (w : World) : Iter World (Option World) :=
  let recv := (w.sessions this).mRecvBuffer
  match recv.peek sizeofPacketHeader with
  | none => .leave (some w)
  | some bytes =>
      let header := PacketHeader.ofBytes bytes
      if recv.getStoredSize < shortToSize header.mSize then
        .leave (some w)
      else if header.mType ≥ PacketTypes.pktMax.value ∨
          header.mType ≤ PacketTypes.pktNone.value then
        .leave (some (w.disconnect this))
      else
        match handlerTable header.mType this w with
        | none => .leave none
        | some w' => .again w'

/-! ## `RecvCompletion` -/

/-- The bytes of a completed receive are in the buffer it was posted with. -/
def arrive (w : World) (post : RecvPost) (data : List UInt8) : World :=
  w.modify post.owner (fun s => s.arrive post.buf data)

/-- The first line of `OnRead`. -/
def commitRecv (w : World) (this : SessionId) (len : Nat) : World :=
  w.modify this (fun s => { s with mRecvBuffer := s.mRecvBuffer.commit len })

/-- `RecvCompletion` up to the loop of `OnRead`; false when it returns before. -/
def recvEntry (w : World) (this : SessionId) (dwError : Bool) (cbTransferred : Nat) :
    Bool × World :=
  let w := w.modify this ClientSession.decRefCount
  if (w.sessions this).mConnected then
    if dwError ∨ cbTransferred = 0 then (false, w.disconnect this)
    else (true, w.commitRecv this cbTransferred)
  else (false, w)

/-- The completion of a posted receive: its bytes are in the buffer, and
    `RecvCompletion` is called for it. -/
def recvCompletion (w : World) (post : RecvPost) (dwError : Bool) (data : List UInt8) :
    Bool × World :=
  let w := { w with os := { w.os with recvs := w.os.recvs.erase post } }
  (w.arrive post data).recvEntry post.owner dwError data.length

/-- `RecvCompletion` after `OnRead`. -/
def recvExit (w : World) (this : SessionId) : World :=
  let r := (w.sessions this).postRecv this w.os
  if r.1 then w.put this r.2 else (w.put this r.2).disconnect this

/-! ## What an iteration can do -/

variable {w : World} {this : SessionId}

@[simp] theorem sessions_consumed_self (w : World) (this : SessionId) (type : PacketTypes)
    (bytes : List UInt8) (rest : CircularBuffer) :
    (w.consumed this type bytes rest).sessions this
      = { w.sessions this with mRecvBuffer := rest } := sessions_put_self ..

@[simp] theorem parsedBy_consumed_self (w : World) (this : SessionId) (type : PacketTypes)
    (bytes : List UInt8) (rest : CircularBuffer) :
    (w.consumed this type bytes rest).parsedBy this = w.parsedBy this ++ [bytes] := by
  unfold parsedBy
  refine (List.filterMap_append (l := w.trace)).trans ?_
  simp

theorem withPacket_of_none {size : Nat} (h : (w.sessions this).mRecvBuffer.read size = none)
    (type : PacketTypes) (body : List UInt8 → World → Option World) :
    w.withPacket this type size body = some w := by
  simp only [withPacket, parsePacket, h, Option.map_none]

theorem withPacket_of_some {size : Nat} {bytes : List UInt8} {rest : CircularBuffer}
    (h : (w.sessions this).mRecvBuffer.read size = some (bytes, rest)) (type : PacketTypes)
    (body : List UInt8 → World → Option World) :
    w.withPacket this type size body = body bytes (w.consumed this type bytes rest) := by
  simp only [withPacket, parsePacket, h, Option.map_some]

/-- What a handler does with its packet once it is read: push a login job, end
    the process, or relay at most. -/
theorem handler_of_read (r : Registered) {bytes : List UInt8} {rest : CircularBuffer}
    (h : (w.sessions this).mRecvBuffer.read r.size = some (bytes, rest)) :
    (r = .login ∧ r.handler this w =
        some ((w.consumed this r.type bytes rest).pushDatabaseJobRequest this
          (loadJob (w.sessions this).mSocket (.ofBytes bytes)))) ∨
      (r.Crashes (w.sessions this).mPlayerId bytes ∧ r.handler this w = none) ∨
      (r ≠ .login ∧ ¬ r.Crashes (w.sessions this).mPlayerId bytes ∧
        ∃ w', r.handler this w = some w' ∧ (w.consumed this r.type bytes rest).Calm w') := by
  cases r with
  | login =>
      refine Or.inl ⟨rfl, (withPacket_of_some h _ _).trans ?_⟩
      rw [sessions_consumed_self]
      rfl
  | chat =>
      have hrun := withPacket_of_some h (Registered.type .chat)
      have hself := sessions_consumed_self w this (Registered.type .chat) bytes rest
      by_cases hpid : (ChatBroadcastRequest.ofBytes bytes).mPlayerId
          ≠ (w.sessions this).mPlayerId
      · refine Or.inr (Or.inr ⟨by decide, fun hc => hpid hc.2.1, _, (hrun _).trans (if_pos ?_),
          .refl _⟩)
        rw [hself]
        exact hpid
      · have hpid' := not_not.mp hpid
        have hif : ¬ (ChatBroadcastRequest.ofBytes bytes).mPlayerId
            ≠ ((w.consumed this (Registered.type .chat) bytes rest).sessions this).mPlayerId := by
          rw [hself]
          exact hpid
        have hterm := strcpyS_isSome_iff (.zeros maxChatLen maxChatLen_pos)
          (Nat.le_of_eq (ChatBroadcastRequest.ofBytes bytes).mChat.size)
        cases hcopy : strcpyS (.zeros maxChatLen maxChatLen_pos)
            (ChatBroadcastRequest.ofBytes bytes).mChat.bytes with
        | none =>
            -- the copy fails exactly on a text without a terminator
            have hno : (0 : UInt8) ∉ (ChatBroadcastRequest.ofBytes bytes).mChat.bytes := by
              intro hmem
              rw [← hterm, hcopy] at hmem
              cases hmem
            refine Or.inr (Or.inl ⟨⟨rfl, hpid', hno⟩, ?_⟩)
            refine (hrun _).trans ((if_neg hif).trans ?_)
            rw [hcopy]
        | some chat =>
            have hyes : (0 : UInt8) ∈ (ChatBroadcastRequest.ofBytes bytes).mChat.bytes := by
              rw [← hterm, hcopy]
              rfl
            have hsend : Registered.handler .chat this w = _ := (hrun _).trans (if_neg hif)
            rw [hcopy] at hsend
            exact Or.inr (Or.inr ⟨by decide, fun hc => hc.2.2 hyes, _, hsend,
              calm_relay _ this _⟩)
  | move =>
      have hrun := withPacket_of_some h (Registered.type .move)
      have hself := sessions_consumed_self w this (Registered.type .move) bytes rest
      refine Or.inr (Or.inr ⟨by decide, fun hc => absurd hc.1 (by decide), ?_⟩)
      by_cases hpid : (MoveRequest.ofBytes bytes).mPlayerId ≠ (w.sessions this).mPlayerId
      · refine ⟨_, (hrun _).trans (if_pos ?_), .refl _⟩
        rw [hself]
        exact hpid
      · refine ⟨_, (hrun _).trans (if_neg ?_), ?_⟩
        · rw [hself]
          exact hpid
        · exact (calm_modify _ this ⟨rfl, rfl, rfl, rfl, id⟩).trans (calm_relay _ this _)

/-- A handler that finds too few bytes changes nothing. -/
theorem handler_of_read_none (r : Registered)
    (h : (w.sessions this).mRecvBuffer.read r.size = none) : r.handler this w = some w := by
  cases r with
  | login => exact withPacket_of_none h _ _
  | chat => exact withPacket_of_none h _ _
  | move => exact withPacket_of_none h _ _

/-- A header `OnRead` dispatches: the declared size has arrived, and the type
    is inside the table. -/
structure Dispatched (bs : List UInt8) : Prop where
  header : sizeofPacketHeader ≤ bs.length
  arrived : shortToSize (PacketHeader.ofBytes bs).mSize ≤ bs.length
  type_lt : (PacketHeader.ofBytes bs).mType < PacketTypes.pktMax.value
  type_pos : PacketTypes.pktNone.value < (PacketHeader.ofBytes bs).mType

/-- An iteration leaves the loop, ends the process, or dispatches. -/
theorem onReadBody_cases (this : SessionId) (w : World) :
    (¬ Dispatched (w.sessions this).mRecvBuffer.contents ∧
        (onReadBody this w = .leave (some w) ∨
          onReadBody this w = .leave (some (w.disconnect this)))) ∨
      (Dispatched (w.sessions this).mRecvBuffer.contents ∧
        ((handlerTable (PacketHeader.ofBytes (w.sessions this).mRecvBuffer.contents).mType this w
              = none ∧ onReadBody this w = .leave none) ∨
          ∃ w', handlerTable (PacketHeader.ofBytes (w.sessions this).mRecvBuffer.contents).mType
              this w = some w' ∧ onReadBody this w = .again w')) := by
  have hpeek := CircularBuffer.peek_spec (w.sessions this).mRecvBuffer sizeofPacketHeader
  have hlen := CircularBuffer.length_contents (w.sessions this).mRecvBuffer
  have hof := PacketHeader.ofBytes_take (w.sessions this).mRecvBuffer.contents
    (Nat.le_refl sizeofPacketHeader)
  unfold onReadBody
  by_cases hheader : sizeofPacketHeader ≤ (w.sessions this).mRecvBuffer.getStoredSize
  · rw [if_pos hheader] at hpeek
    simp only [hpeek, hof]
    by_cases hsize : (w.sessions this).mRecvBuffer.getStoredSize
        < shortToSize (PacketHeader.ofBytes (w.sessions this).mRecvBuffer.contents).mSize
    · rw [if_pos hsize]
      refine Or.inl ⟨fun hd => ?_, Or.inl rfl⟩
      have := hd.arrived
      omega
    · rw [if_neg hsize]
      by_cases htype : (PacketHeader.ofBytes (w.sessions this).mRecvBuffer.contents).mType
            ≥ PacketTypes.pktMax.value ∨
          (PacketHeader.ofBytes (w.sessions this).mRecvBuffer.contents).mType
            ≤ PacketTypes.pktNone.value
      · rw [if_pos htype]
        refine Or.inl ⟨fun hd => ?_, Or.inr rfl⟩
        rcases htype with hge | hle
        · exact absurd hd.type_lt (Int16.not_lt.mpr hge)
        · exact absurd hd.type_pos (Int16.not_lt.mpr hle)
      · rw [if_neg htype]
        obtain ⟨hlt, hpos⟩ := not_or.mp htype
        refine Or.inr ⟨⟨by omega, by omega, Int16.not_le.mp hlt, Int16.not_le.mp hpos⟩, ?_⟩
        split
        next hnone => exact Or.inl ⟨hnone, rfl⟩
        next w' hsome => exact Or.inr ⟨w', hsome, rfl⟩
  · rw [if_neg hheader] at hpeek
    simp only [hpeek]
    refine Or.inl ⟨fun hd => ?_, Or.inl trivial⟩
    have := hd.header
    omega

/-- What an iteration of `OnRead` that goes on has done: it has hung up for a
    packet nobody handles, found the packet not all there, or run a handler. -/
inductive ReadsAgain (this : SessionId) (w : World) : World → Prop
  | hungUp
      (hnone : registered? (PacketHeader.ofBytes (w.sessions this).mRecvBuffer.contents).mType
        = none) : ReadsAgain this w (w.disconnect this)
  | short : ReadsAgain this w w
  | read {w' : World} (r : Registered) (bytes : List UInt8) (rest : CircularBuffer)
      (hd : Dispatched (w.sessions this).mRecvBuffer.contents)
      (hr : registered? (PacketHeader.ofBytes (w.sessions this).mRecvBuffer.contents).mType
        = some r)
      (hread : (w.sessions this).mRecvBuffer.read r.size = some (bytes, rest))
      (hrun : r.handler this w = some w') : ReadsAgain this w w'

theorem readsAgain_of_onReadBody {w' : World} (h : onReadBody this w = .again w') :
    ReadsAgain this w w' := by
  rcases onReadBody_cases this w with ⟨-, heq | heq⟩ | ⟨hd, ⟨-, heq⟩ | ⟨w₁, hrun, heq⟩⟩
  · exact absurd (heq.symm.trans h) (by simp)
  · exact absurd (heq.symm.trans h) (by simp)
  · exact absurd (heq.symm.trans h) (by simp)
  · rw [heq] at h
    cases h
    cases hr : registered? (PacketHeader.ofBytes (w.sessions this).mRecvBuffer.contents).mType with
    | none =>
        simp only [handlerTable, hr] at hrun
        cases hrun
        exact .hungUp hr
    | some r =>
        simp only [handlerTable, hr] at hrun
        cases hread : (w.sessions this).mRecvBuffer.read r.size with
        | none =>
            rw [handler_of_read_none r hread] at hrun
            cases hrun
            exact .short
        | some read => exact .read r read.1 read.2 hd hr hread hrun

/-- One that leaves the loop has hung up at most. -/
theorem eq_of_onReadBody_leave {w' : World} (h : onReadBody this w = .leave (some w')) :
    w' = w ∨ w' = w.disconnect this := by
  rcases onReadBody_cases this w with ⟨-, heq | heq⟩ | ⟨-, ⟨-, heq⟩ | ⟨w₁, -, heq⟩⟩
  · rw [heq] at h
    cases h
    exact Or.inl rfl
  · rw [heq] at h
    cases h
    exact Or.inr rfl
  · exact absurd (heq.symm.trans h) (by simp)
  · exact absurd (heq.symm.trans h) (by simp)

/-- `RecvCompletion` up to the loop of `OnRead`: without a connection it only
    drops a reference; on an error or an empty receive it also disconnects;
    else it commits the bytes. -/
theorem recvCompletion_cases (w : World) (post : RecvPost) (dwError : Bool)
    (data : List UInt8) :
    let s := ((w.sessions post.owner).arrive post.buf data).decRefCount
    let os := { w.os with recvs := w.os.recvs.erase post }
    ((w.sessions post.owner).mConnected = false ∧
        w.recvCompletion post dwError data = (false, w.put post.owner (s, os))) ∨
      ((w.sessions post.owner).mConnected = true ∧ (dwError = true ∨ data = []) ∧
        w.recvCompletion post dwError data =
          (false, (w.put post.owner (s, os)).disconnect post.owner)) ∨
      ((w.sessions post.owner).mConnected = true ∧ ¬ (dwError = true ∨ data = []) ∧
        w.recvCompletion post dwError data =
          (true, w.put post.owner
            ({ s with mRecvBuffer := s.mRecvBuffer.commit data.length }, os))) := by
  intro s os
  have hentry : w.recvCompletion post dwError data =
      if s.mConnected then
        if dwError ∨ data.length = 0 then (false, (w.put post.owner (s, os)).disconnect post.owner)
        else (true, (w.put post.owner (s, os)).commitRecv post.owner data.length)
      else (false, w.put post.owner (s, os)) := by
    have hw : ((({ w with os := os } : World).arrive post data).modify post.owner
        ClientSession.decRefCount) = w.put post.owner (s, os) := by
      simp only [arrive, modify, put_put, sessions_put_self]
      rfl
    have hself := sessions_put_self w post.owner (s, os)
    unfold recvCompletion recvEntry
    simp only [os] at hw hself
    simp only [hw, hself, os]
  rw [hentry]
  cases hc : (w.sessions post.owner).mConnected with
  | false => exact Or.inl ⟨rfl, if_neg (by simp [s, ClientSession.decRefCount,
      ClientSession.arrive, hc])⟩
  | true =>
      have hs : s.mConnected = true := hc
      rw [if_pos hs]
      refine Or.inr ?_
      by_cases herr : dwError = true ∨ data = []
      · refine Or.inl ⟨rfl, herr, if_pos ?_⟩
        rwa [List.length_eq_zero_iff]
      · refine Or.inr ⟨rfl, herr, (if_neg ?_).trans ?_⟩
        · rwa [List.length_eq_zero_iff]
        · rw [commitRecv, modify, put_put, sessions_put_self]
          rfl

/-- Posting the next receive does nothing without a connection; else it chooses
    the window, and posts it unless the call fails. -/
theorem recvExit_cases (w : World) (this : SessionId) :
    ((w.sessions this).mConnected = false ∧ w.Calm (w.recvExit this)) ∨
      ((w.sessions this).mConnected = true ∧ ∃ k, w.recvExit this =
        w.put this
          (ClientSession.incRefCount
            { w.sessions this with
              mRecvBuffer := (w.sessions this).mRecvBuffer.getFreeSpaceSize.2 },
            { w.os with
              asked := k
              recvs := w.os.recvs ++ [⟨this,
                (w.sessions this).mRecvBuffer.getFreeSpaceSize.2.getBuffer,
                (w.sessions this).mRecvBuffer.getFreeSpaceSize.1⟩] })) ∨
      ((w.sessions this).mConnected = true ∧ ∃ k,
        (w.put this
          ({ w.sessions this with
              mRecvBuffer := (w.sessions this).mRecvBuffer.getFreeSpaceSize.2 },
            { w.os with asked := k })).Calm (w.recvExit this)) := by
  unfold recvExit
  rcases (w.sessions this).postRecv_cases this w.os with
    ⟨hc, heq⟩ | ⟨hc, k, heq⟩ | ⟨hc, k, heq⟩
  · rw [heq]
    exact Or.inl ⟨hc, (calm_put (ClientSession.fades_refl _ _)).trans (calm_disconnect _ this)⟩
  · rw [heq]
    exact Or.inr (Or.inl ⟨hc, k, rfl⟩)
  · rw [heq]
    exact Or.inr (Or.inr ⟨hc, k, calm_disconnect _ this⟩)

/-- A new session whose `OnConnect` has set `mConnected`. -/
def connectClient (w : World) (sock : SOCKET) (sendMem recvMem : Nat → UInt8) : World :=
  (w.createClient sock sendMem recvMem).modify w.next (fun s => { s with mConnected := true })

/-- From there `OnConnect` goes on as `RecvCompletion` does after `OnRead`. -/
theorem acceptClient_eq (w : World) (sock : SOCKET) (sendMem recvMem : Nat → UInt8) :
    w.acceptClient sock sendMem recvMem
      = (w.connectClient sock sendMem recvMem).recvExit w.next := by
  simp only [acceptClient, recvExit, connectClient, modify, ClientSession.onConnect,
    sessions_put_self, put_put]
  rfl

end World
end EasyGameServer
