/-
  EasyGameServer.HelloWorld

  The Cocos thread of the client: `HelloWorldScene.cpp`, and the requests of
  `TcpClient.cpp` that its keyboard makes.  The network thread posts functions
  to it, which it performs in order; they move sprites and print chats.

  The scene is a sprite for the player, one for each peer that has moved, and
  what has been printed.  What the machine makes of a sum of two floats is a
  parameter.
-/

import EasyGameServer.PacketHandling.Framing
import EasyGameServer.TcpClient
import EasyGameServer.TcpClient.Send

namespace EasyGameServer

open Lib

-- ============================================================================
-- Requests
-- ============================================================================

/-- The requests the scene can make; `rand` is what `rand()` returns. -/
inductive Request where
  | loginRequest (rand : Nat)
  | chatRequest (chat : List UInt8)
  | moveRequest (x y : CFloat)

namespace Request

/-- `mChat` of a new request with a text copied to its beginning. -/
def chatField (chat : List UInt8) : List UInt8 :=
  chat ++ List.replicate (maxChatLen - chat.length) 0

/-- What is handed to `send`; `none` when the request returns before. -/
def sendData (mLoginId : Int32) : Request → Option (List UInt8)
  | .loginRequest rand =>
      if mLoginId > 0 then none
      else
        some (PacketHeader.toBytes ⟨Int16.ofNat sizeofLoginRequest, PacketTypes.pktCsLogin.value⟩
          ++ int32Bytes (Int32.ofNat (1000 + rand % 101)))
  | .chatRequest chat =>
      if mLoginId < 0 then none
      else
        some (PacketHeader.toBytes
            ⟨Int16.ofNat sizeofChatBroadcastRequest, PacketTypes.pktCsChat.value⟩
          ++ int32Bytes mLoginId ++ chatField chat)
  | .moveRequest x y => if mLoginId < 0 then none else some (TcpClient.moveRequest mLoginId x y)

/-- The text of a chat leaves room for a terminator. -/
def Fits : Request → Prop
  | .chatRequest chat => chat.length < maxChatLen
  | _ => True

end Request

-- ============================================================================
-- The scene
-- ============================================================================

/-- How the machine adds and subtracts floats. -/
structure FloatArith where
  add : CFloat → CFloat → CFloat
  sub : CFloat → CFloat → CFloat

structure HelloWorld where
  /-- Where `mPlayerSprite` is. -/
  mPlayerSprite : CFloat × CFloat
  /-- Where the sprites of `mPeerMap` are. -/
  mPeerMap : Int32 → Option (CFloat × CFloat)
  /-- The names and texts `CCLOG` was given. -/
  chats : List (List UInt8 × List UInt8)

namespace HelloWorld

inductive KeyCode where
  | keyUpArrow
  | keyDownArrow
  | keyLeftArrow
  | keyRightArrow
  | keyL
  | keyC
  | other
deriving DecidableEq

/-- `init`, where the window puts the player's sprite. -/
def init (mPlayerSprite : CFloat × CFloat) : HelloWorld where
  mPlayerSprite := mPlayerSprite
  mPeerMap := fun _ => none
  chats := []

/-- 10.0f. -/
def ten : CFloat := 0x41200000

/-- " - HELLO~~ THIS IS TEST..." -/
def helloText : List UInt8 :=
  [32, 45, 32, 72, 69, 76, 76, 79, 126, 126, 32, 84, 72, 73, 83, 32, 73, 83, 32, 84, 69, 83, 84,
    46, 46, 46]

/-- The request `onKeyReleased` makes. -/
def onKeyReleased (arith : FloatArith) (scene : HelloWorld) (rand : Nat) :
    KeyCode → Option Request
  | .keyUpArrow =>
      some (.moveRequest scene.mPlayerSprite.1 (arith.add scene.mPlayerSprite.2 ten))
  | .keyDownArrow =>
      some (.moveRequest scene.mPlayerSprite.1 (arith.sub scene.mPlayerSprite.2 ten))
  | .keyLeftArrow =>
      some (.moveRequest (arith.sub scene.mPlayerSprite.1 ten) scene.mPlayerSprite.2)
  | .keyRightArrow =>
      some (.moveRequest (arith.add scene.mPlayerSprite.1 ten) scene.mPlayerSprite.2)
  | .keyL => some (.loginRequest rand)
  | .keyC => some (.chatRequest helloText)
  | .other => none

def updateMe (scene : HelloWorld) (x y : CFloat) : HelloWorld :=
  { scene with mPlayerSprite := (x, y) }

/-- The sprite of a peer is created where it is first seen. -/
def updatePeer (scene : HelloWorld) (id : Int32) (x y : CFloat) : HelloWorld :=
  { scene with mPeerMap := fun i => if i = id then some (x, y) else scene.mPeerMap i }

def chatDraw (scene : HelloWorld) (sender chat : List UInt8) : HelloWorld :=
  { scene with chats := scene.chats ++ [(sender, chat)] }

/-- Perform a function the network thread has posted; its `std::string`s end at
    the terminators. -/
def perform (scene : HelloWorld) : SceneCall → HelloWorld
  | .chatDraw sender msg =>
      scene.chatDraw (sender.bytes.takeWhile (· ≠ 0)) (msg.bytes.takeWhile (· ≠ 0))
  | .updateMe x y => scene.updateMe x y
  | .updatePeer id x y => scene.updatePeer id x y

theorem fits_onKeyReleased {arith : FloatArith} {scene : HelloWorld} {rand : Nat} {key : KeyCode}
    {request : Request} (h : scene.onKeyReleased arith rand key = some request) :
    request.Fits := by
  cases key with
  | keyC =>
      cases h
      exact (by decide : helloText.length < maxChatLen)
  | other => cases h
  | _ =>
      cases h
      trivial

end HelloWorld

-- ============================================================================
-- What a request looks like
-- ============================================================================

/-- A packet as the server likes it: as long as it says, never in the name of
    player −1, and no chat without a terminator. -/
structure Requested (p : List UInt8) : Prop where
  conforming : World.Conforming p
  named : ∀ r, World.registered? (PacketHeader.ofBytes p).mType = some r → r ≠ .login →
    World.claimedPlayerId p ≠ -1
  terminated : ∀ pid, ¬ World.Registered.Crashes .chat pid p

namespace Request

variable {mLoginId : Int32} {p : List UInt8}

/-- The header a packet starts with. -/
theorem ofBytes_header (header : PacketHeader) (rest : List UInt8) :
    PacketHeader.ofBytes (header.toBytes ++ rest) = header := by
  rw [← PacketHeader.ofBytes_take _ (Nat.le_refl sizeofPacketHeader),
    List.take_left' (PacketHeader.length_toBytes header), PacketHeader.ofBytes_toBytes]

theorem claimedPlayerId_header (header : PacketHeader) (id : Int32) (rest : List UInt8) :
    World.claimedPlayerId (header.toBytes ++ int32Bytes id ++ rest) = id := by
  rw [List.append_assoc]
  exact int32At_of_eq rfl (PacketHeader.length_toBytes header)

theorem ne_of_not_neg (h : ¬ mLoginId < 0) : mLoginId ≠ -1 := by
  rintro rfl
  exact h (by decide)

theorem length_chatField {chat : List UInt8} (h : chat.length < maxChatLen) :
    (chatField chat).length = maxChatLen := by
  rw [chatField, List.length_append, List.length_replicate]
  omega

/-- A packet too short for a chat reads as one with zeros behind. -/
theorem not_crashes_of_short (h : p.length < sizeofChatBroadcastRequest) (pid : Int32) :
    ¬ World.Registered.Crashes .chat pid p := by
  intro hcrash
  refine hcrash.2.2 (List.mem_append_right _ (List.mem_replicate.mpr ⟨?_, rfl⟩))
  have hsize : sizeofChatBroadcastRequest = 8 + maxChatLen := rfl
  have hpos := maxChatLen_pos
  rw [field, List.length_take, List.length_drop]
  omega

/-- A login request, in whosever name. -/
theorem requested_login (id : Int32) :
    Requested (PacketHeader.toBytes
      ⟨Int16.ofNat sizeofLoginRequest, PacketTypes.pktCsLogin.value⟩ ++ int32Bytes id) := by
  refine ⟨⟨.login, ?_, ?_, ?_⟩, fun r hr hne => ?_, not_crashes_of_short ?_⟩
  · rw [ofBytes_header]
    decide
  · rw [List.length_append, PacketHeader.length_toBytes, length_int32Bytes]
    rfl
  · rw [ofBytes_header]
    decide
  · rw [ofBytes_header] at hr
    exact absurd (Option.some.inj hr).symm hne
  · rw [List.length_append, PacketHeader.length_toBytes, length_int32Bytes]
    decide

/-- A chat whose text leaves room for a terminator. -/
theorem requested_chat {id : Int32} (hid : id ≠ -1) {chat : List UInt8}
    (hfits : chat.length < maxChatLen) :
    Requested (PacketHeader.toBytes
        ⟨Int16.ofNat sizeofChatBroadcastRequest, PacketTypes.pktCsChat.value⟩
      ++ int32Bytes id ++ chatField chat) := by
  refine ⟨⟨.chat, ?_, ?_, ?_⟩, fun _ _ _ => ?_, fun pid hcrash => ?_⟩
  · rw [List.append_assoc, ofBytes_header]
    decide
  · rw [List.length_append, List.length_append, PacketHeader.length_toBytes, length_int32Bytes,
      length_chatField hfits]
    rfl
  · rw [List.append_assoc, ofBytes_header]
    decide
  · rw [claimedPlayerId_header]
    exact hid
  · -- behind the text comes what the constructor has zeroed
    refine hcrash.2.2 ?_
    have harray : ∀ header : PacketHeader, charArrayAt
        (header.toBytes ++ int32Bytes id ++ chatField chat) 8 maxChatLen
        = ⟨chatField chat, length_chatField hfits⟩ := by
      intro header
      have hbytes : header.toBytes ++ int32Bytes id ++ chatField chat
          = header.toBytes ++ int32Bytes id ++ (chatField chat ++ []) := by
        rw [List.append_nil]
      refine charArrayAt_of_eq hbytes ?_
      rw [List.length_append, PacketHeader.length_toBytes, length_int32Bytes]
      rfl
    rw [ChatBroadcastRequest.ofBytes, harray]
    exact List.mem_append_right _ (List.mem_replicate.mpr ⟨by omega, rfl⟩)

/-- A move to anywhere. -/
theorem requested_move {id : Int32} (hid : id ≠ -1) (x y : CFloat) :
    Requested (TcpClient.moveRequest id x y) := by
  have hbytes : TcpClient.moveRequest id x y = PacketHeader.toBytes
      ⟨Int16.ofNat sizeofMoveRequest, PacketTypes.pktCsMove.value⟩
      ++ int32Bytes id ++ (uint32Bytes x ++ uint32Bytes y) := by
    rw [TcpClient.moveRequest, List.append_assoc]
  rw [hbytes]
  have hlen : (PacketHeader.toBytes
      ⟨Int16.ofNat sizeofMoveRequest, PacketTypes.pktCsMove.value⟩
      ++ int32Bytes id ++ (uint32Bytes x ++ uint32Bytes y)).length = sizeofMoveRequest := by
    rw [List.length_append, List.length_append, List.length_append, PacketHeader.length_toBytes,
      length_int32Bytes, length_uint32Bytes, length_uint32Bytes]
    rfl
  refine ⟨⟨.move, ?_, hlen, ?_⟩, fun _ _ _ => ?_, not_crashes_of_short ?_⟩
  · rw [List.append_assoc, ofBytes_header]
    decide
  · rw [List.append_assoc, ofBytes_header]
    decide
  · rw [claimedPlayerId_header]
    exact hid
  · rw [hlen]
    decide

/-- Whatever the keyboard makes a client send. -/
theorem requested {request : Request} (hfits : request.Fits)
    (h : request.sendData mLoginId = some p) : Requested p := by
  cases request with
  | loginRequest rand =>
      simp only [sendData] at h
      split at h
      next => cases h
      next =>
        cases h
        exact requested_login _
  | chatRequest chat =>
      simp only [sendData] at h
      split at h
      next => cases h
      next hid =>
        cases h
        exact requested_chat (ne_of_not_neg hid) hfits
  | moveRequest x y =>
      simp only [sendData] at h
      split at h
      next => cases h
      next hid =>
        cases h
        exact requested_move (ne_of_not_neg hid) x y

end Request

-- ============================================================================
-- Sending
-- ============================================================================

namespace TcpClient

/-- The bytes that a call of `send` gets accepted. -/
def sent (sock : Socket) (sendData : List UInt8) : List UInt8 :=
  match loop (sendBody sock (memcpy (fun _ => 0) 0 sendData)) (sendData.length + 1)
    (send sendData.length) with
  | some r => r.2
  | none => []

/-- Every call of `::send` accepts what it is offered. -/
def Socket.TakesAll (sock : Socket) : Prop := ∀ k len, 0 < len → sock.send k len = len

theorem sent_of_takesAll {sock : Socket} (h : sock.TakesAll) (sendData : List UInt8) :
    sent sock sendData = sendData := by
  cases hdata : sendData with
  | nil => rfl
  | cons b rest =>
      rw [← hdata]
      have hpos : (0 : Int) < sendData.length := by
        rw [hdata, List.length_cons]
        omega
      have hall := h 0 sendData.length hpos
      have hok : ¬ (sendData.length : Int) = SOCKET_ERROR := by
        intro heq
        rw [heq] at hpos
        exact absurd hpos (by decide)
      have hagain : sendBody sock (memcpy (fun _ => 0) 0 sendData) (send sendData.length) =
          .again { count := sendData.length, length := 0, calls := 1, accepted := sendData } := by
        have hslice := slice_memcpy_self (fun _ => (0 : UInt8)) 0 sendData
        simp only [sendBody, send, hpos, if_true, hall, hok, if_false, Int.zero_add, Int.sub_self,
          Nat.zero_add, Int.toNat_zero, Int.toNat_natCast, List.nil_append, hslice]
      have hleave : sendBody sock (memcpy (fun _ => 0) 0 sendData)
          { count := sendData.length, length := 0, calls := 1, accepted := sendData }
            = .leave (true, sendData) := by
        simp only [sendBody]
        rw [if_neg (by omega)]
      have hlast := loop_succ_leave hleave rest.length
      rw [← List.length_cons, ← hdata] at hlast
      rw [sent, loop_succ_again hagain, hlast]

end TcpClient
end EasyGameServer
