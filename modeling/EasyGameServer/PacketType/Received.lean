/-
  EasyGameServer.PacketType.Received

  The packets of the server as its clients hold them: the same packed structs,
  with the bytes that came off the network copied over what the constructors
  had put there.  A client's character arrays are just arrays.

  Server and clients agree on the layout: every field a client finds in the
  bytes of a packet is the field the server put there.
-/

import EasyGameServer.PacketType

namespace EasyGameServer

open Lib

def sizeofLoginResult : Nat := 46
def sizeofChatBroadcastResult : Nat := 294
def sizeofMoveBroadcastResult : Nat := 16

namespace Received

structure LoginResult extends PacketHeader where
  mPlayerId : Int32
  mPosX : CFloat
  mPosY : CFloat
  mName : CharArray maxNameLen

structure ChatBroadcastResult extends PacketHeader where
  mPlayerId : Int32
  mName : CharArray maxNameLen
  mChat : CharArray maxChatLen

structure MoveBroadcastResult extends PacketHeader where
  mPlayerId : Int32
  mPosX : CFloat
  mPosY : CFloat

def LoginResult.ofBytes (bs : List UInt8) : LoginResult where
  toPacketHeader := .ofBytes bs
  mPlayerId := int32At bs 4
  mPosX := uint32At bs 8
  mPosY := uint32At bs 12
  mName := charArrayAt bs 16 maxNameLen

def ChatBroadcastResult.ofBytes (bs : List UInt8) : ChatBroadcastResult where
  toPacketHeader := .ofBytes bs
  mPlayerId := int32At bs 4
  mName := charArrayAt bs 8 maxNameLen
  mChat := charArrayAt bs 38 maxChatLen

def MoveBroadcastResult.ofBytes (bs : List UInt8) : MoveBroadcastResult where
  toPacketHeader := .ofBytes bs
  mPlayerId := int32At bs 4
  mPosX := uint32At bs 8
  mPosY := uint32At bs 12

/-- The bytes the constructors leave.  `LoginResult` leaves its position as it
    was; what was there is only ever printed. -/
def LoginResult.blank : List UInt8 :=
  EasyGameServer.LoginResult.header.toBytes ++ int32Bytes (-1) ++ uint32Bytes 0 ++ uint32Bytes 0
    ++ List.replicate maxNameLen 0

def ChatBroadcastResult.blank : List UInt8 :=
  EasyGameServer.ChatBroadcastResult.header.toBytes ++ int32Bytes (-1)
    ++ List.replicate maxNameLen 0 ++ List.replicate maxChatLen 0

def MoveBroadcastResult.blank : List UInt8 :=
  EasyGameServer.MoveBroadcastResult.header.toBytes ++ int32Bytes (-1) ++ uint32Bytes 0
    ++ uint32Bytes 0

theorem LoginResult.length_blank : LoginResult.blank.length = sizeofLoginResult := by
  simp only [LoginResult.blank, List.length_append, PacketHeader.length_toBytes,
    length_int32Bytes, length_uint32Bytes, List.length_replicate]
  rfl

theorem ChatBroadcastResult.length_blank :
    ChatBroadcastResult.blank.length = sizeofChatBroadcastResult := by
  simp only [ChatBroadcastResult.blank, List.length_append, PacketHeader.length_toBytes,
    length_int32Bytes, List.length_replicate]
  rfl

theorem MoveBroadcastResult.length_blank :
    MoveBroadcastResult.blank.length = sizeofMoveBroadcastResult := by
  simp only [MoveBroadcastResult.blank, List.length_append, PacketHeader.length_toBytes,
    length_int32Bytes, length_uint32Bytes]
  rfl

end Received

/-- One of the structs a client reads into. -/
inductive Received where
  | loginResult (p : Received.LoginResult)
  | chatBroadcastResult (p : Received.ChatBroadcastResult)
  | moveBroadcastResult (p : Received.MoveBroadcastResult)

/-- What the server put into the fields. -/
def OutPacket.received : OutPacket → Received
  | .loginResult p =>
      .loginResult ⟨LoginResult.header, p.mPlayerId, p.mPosX, p.mPosY, p.mName.toCharArray⟩
  | .chatBroadcastResult p =>
      .chatBroadcastResult ⟨ChatBroadcastResult.header, p.mPlayerId, p.mName.toCharArray,
        p.mChat.toCharArray⟩
  | .moveBroadcastResult p =>
      .moveBroadcastResult ⟨MoveBroadcastResult.header, p.mPlayerId, p.mPosX, p.mPosY⟩

/-- The bytes of some packets, one after the other. -/
def OutPacket.stream (packets : List OutPacket) : List UInt8 :=
  (packets.map OutPacket.toBytes).flatten

theorem OutPacket.stream_append (packets packets' : List OutPacket) :
    stream (packets ++ packets') = stream packets ++ stream packets' := by
  rw [stream, List.map_append, List.flatten_append]
  rfl

theorem LoginResult.ofBytes_toBytes (p : LoginResult) :
    Received.LoginResult.ofBytes p.toBytes
      = ⟨LoginResult.header, p.mPlayerId, p.mPosX, p.mPosY, p.mName.toCharArray⟩ := by
  have hheader : PacketHeader.ofBytes p.toBytes = LoginResult.header :=
    OutPacket.ofBytes_toBytes (.loginResult p)
  have hid : int32At p.toBytes 4 = p.mPlayerId := OutPacket.int32At_toBytes (.loginResult p)
  have hx : p.toBytes = (LoginResult.header.toBytes ++ int32Bytes p.mPlayerId)
      ++ (uint32Bytes p.mPosX ++ (uint32Bytes p.mPosY ++ p.mName.bytes)) := by
    simp only [LoginResult.toBytes, List.append_assoc]
  have hy : p.toBytes = (LoginResult.header.toBytes ++ int32Bytes p.mPlayerId
      ++ uint32Bytes p.mPosX) ++ (uint32Bytes p.mPosY ++ p.mName.bytes) := by
    simp only [LoginResult.toBytes, List.append_assoc]
  have hname : p.toBytes = (LoginResult.header.toBytes ++ int32Bytes p.mPlayerId
      ++ uint32Bytes p.mPosX ++ uint32Bytes p.mPosY) ++ (p.mName.bytes ++ []) := by
    simp only [LoginResult.toBytes, List.append_assoc, List.append_nil]
  have hx' : uint32At p.toBytes 8 = p.mPosX := uint32At_of_eq hx rfl
  have hy' : uint32At p.toBytes 12 = p.mPosY := uint32At_of_eq hy rfl
  have hname' : charArrayAt p.toBytes 16 maxNameLen = p.mName.toCharArray :=
    charArrayAt_of_eq hname rfl
  rw [Received.LoginResult.ofBytes, hheader, hid, hx', hy', hname']

theorem ChatBroadcastResult.ofBytes_toBytes (p : ChatBroadcastResult) :
    Received.ChatBroadcastResult.ofBytes p.toBytes
      = ⟨ChatBroadcastResult.header, p.mPlayerId, p.mName.toCharArray, p.mChat.toCharArray⟩ := by
  have hheader : PacketHeader.ofBytes p.toBytes = ChatBroadcastResult.header :=
    OutPacket.ofBytes_toBytes (.chatBroadcastResult p)
  have hid : int32At p.toBytes 4 = p.mPlayerId :=
    OutPacket.int32At_toBytes (.chatBroadcastResult p)
  have hname : p.toBytes = (ChatBroadcastResult.header.toBytes ++ int32Bytes p.mPlayerId)
      ++ (p.mName.bytes ++ p.mChat.bytes) := by
    simp only [ChatBroadcastResult.toBytes, List.append_assoc]
  have hchat : p.toBytes = (ChatBroadcastResult.header.toBytes ++ int32Bytes p.mPlayerId
      ++ p.mName.bytes) ++ (p.mChat.bytes ++ []) := by
    simp only [ChatBroadcastResult.toBytes, List.append_assoc, List.append_nil]
  have hoff : (ChatBroadcastResult.header.toBytes ++ int32Bytes p.mPlayerId
      ++ p.mName.bytes).length = 38 := by
    rw [List.length_append, List.length_append, p.mName.size, length_int32Bytes,
      PacketHeader.length_toBytes]
    rfl
  have hname' : charArrayAt p.toBytes 8 maxNameLen = p.mName.toCharArray :=
    charArrayAt_of_eq hname rfl
  have hchat' : charArrayAt p.toBytes 38 maxChatLen = p.mChat.toCharArray :=
    charArrayAt_of_eq hchat hoff
  rw [Received.ChatBroadcastResult.ofBytes, hheader, hid, hname', hchat']

theorem MoveBroadcastResult.ofBytes_toBytes (p : MoveBroadcastResult) :
    Received.MoveBroadcastResult.ofBytes p.toBytes
      = ⟨MoveBroadcastResult.header, p.mPlayerId, p.mPosX, p.mPosY⟩ := by
  have hheader : PacketHeader.ofBytes p.toBytes = MoveBroadcastResult.header :=
    OutPacket.ofBytes_toBytes (.moveBroadcastResult p)
  have hid : int32At p.toBytes 4 = p.mPlayerId :=
    OutPacket.int32At_toBytes (.moveBroadcastResult p)
  have hx : p.toBytes = (MoveBroadcastResult.header.toBytes ++ int32Bytes p.mPlayerId)
      ++ (uint32Bytes p.mPosX ++ uint32Bytes p.mPosY) := by
    simp only [MoveBroadcastResult.toBytes, List.append_assoc]
  have hy : p.toBytes = (MoveBroadcastResult.header.toBytes ++ int32Bytes p.mPlayerId
      ++ uint32Bytes p.mPosX) ++ (uint32Bytes p.mPosY ++ []) := by
    simp only [MoveBroadcastResult.toBytes, List.append_assoc, List.append_nil]
  have hx' : uint32At p.toBytes 8 = p.mPosX := uint32At_of_eq hx rfl
  have hy' : uint32At p.toBytes 12 = p.mPosY := uint32At_of_eq hy rfl
  rw [Received.MoveBroadcastResult.ofBytes, hheader, hid, hx', hy']

end EasyGameServer
