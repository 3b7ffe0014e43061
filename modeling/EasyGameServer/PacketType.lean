/-
  EasyGameServer.PacketType

  The packets of `PacketType.h`, as the packed little-endian structs they are
  on the wire.  A packet a client sends is parsed field by field out of the
  bytes `Read` copied over the struct, header included.  A packet the server
  sends gets its header from its constructor and nothing assigns it later, so
  the header is a constant of the type and not a field.

  `float` fields are only copied, never computed with, so they are bit
  patterns.
-/

import EasyGameServer.Lib.Bytes

namespace EasyGameServer

open Lib

def maxChatLen : Nat := 256
def maxNameLen : Nat := 30
def maxCommentLen : Nat := 40

theorem maxChatLen_pos : 0 < maxChatLen := by decide

theorem maxNameLen_pos : 0 < maxNameLen := by decide

theorem maxCommentLen_pos : 0 < maxCommentLen := by decide

/-- The bit pattern of a C `float`. -/
abbrev CFloat := UInt32

/-- `enum PacketTypes`. -/
inductive PacketTypes where
  | pktNone
  | pktCsLogin
  | pktScLogin
  | pktCsChat
  | pktScChat
  | pktCsMove
  | pktScMove
  | pktMax
deriving DecidableEq, Repr

def PacketTypes.value : PacketTypes → Int16
  | .pktNone => 0
  | .pktCsLogin => 1
  | .pktScLogin => 2
  | .pktCsChat => 11
  | .pktScChat => 12
  | .pktCsMove => 21
  | .pktScMove => 22
  | .pktMax => 1024

/-- Conversion of a `short` to `size_t`: a negative value becomes huge. -/
def shortToSize (x : Int16) : Nat := (x.toInt % 2 ^ 64).toNat

structure PacketHeader where
  mSize : Int16
  mType : Int16
deriving DecidableEq, Repr

def sizeofPacketHeader : Nat := 4

def PacketHeader.ofBytes (bs : List UInt8) : PacketHeader where
  mSize := int16At bs 0
  mType := int16At bs 2

def PacketHeader.toBytes (h : PacketHeader) : List UInt8 :=
  int16Bytes h.mSize ++ int16Bytes h.mType

@[simp] theorem PacketHeader.length_toBytes (h : PacketHeader) :
    h.toBytes.length = sizeofPacketHeader := by
  simp [PacketHeader.toBytes, sizeofPacketHeader]

theorem PacketHeader.ofBytes_toBytes (h : PacketHeader) : PacketHeader.ofBytes h.toBytes = h := by
  have hsize : int16At h.toBytes 0 = h.mSize := int16At_of_eq (List.nil_append _).symm rfl
  have htype : h.toBytes = int16Bytes h.mSize ++ (int16Bytes h.mType ++ []) := by
    rw [List.append_nil]
    rfl
  have htype' : int16At h.toBytes 2 = h.mType := int16At_of_eq htype rfl
  rw [PacketHeader.ofBytes, hsize, htype']

/-- The header only depends on the first four bytes. -/
theorem PacketHeader.ofBytes_take (bs : List UInt8) {n : Nat} (h : sizeofPacketHeader ≤ n) :
    PacketHeader.ofBytes (bs.take n) = PacketHeader.ofBytes bs := by
  unfold sizeofPacketHeader at h
  simp only [PacketHeader.ofBytes, int16At]
  rw [field_take bs (by omega), field_take bs (by omega)]

/-! ## What clients send -/

structure LoginRequest extends PacketHeader where
  mPlayerId : Int32

structure ChatBroadcastRequest extends PacketHeader where
  mPlayerId : Int32
  mChat : CharArray maxChatLen

structure MoveRequest extends PacketHeader where
  mPlayerId : Int32
  mPosX : CFloat
  mPosY : CFloat

def sizeofLoginRequest : Nat := 8
def sizeofChatBroadcastRequest : Nat := 264
def sizeofMoveRequest : Nat := 16

def LoginRequest.ofBytes (bs : List UInt8) : LoginRequest where
  toPacketHeader := .ofBytes bs
  mPlayerId := int32At bs 4

def ChatBroadcastRequest.ofBytes (bs : List UInt8) : ChatBroadcastRequest where
  toPacketHeader := .ofBytes bs
  mPlayerId := int32At bs 4
  mChat := charArrayAt bs 8 maxChatLen

def MoveRequest.ofBytes (bs : List UInt8) : MoveRequest where
  toPacketHeader := .ofBytes bs
  mPlayerId := int32At bs 4
  mPosX := uint32At bs 8
  mPosY := uint32At bs 12

/-! ## What the server sends -/

structure LoginResult where
  mPlayerId : Int32
  mPosX : CFloat
  mPosY : CFloat
  mName : CString maxNameLen
deriving DecidableEq

structure ChatBroadcastResult where
  mPlayerId : Int32
  mName : CString maxNameLen
  mChat : CString maxChatLen
deriving DecidableEq

structure MoveBroadcastResult where
  mPlayerId : Int32
  mPosX : CFloat
  mPosY : CFloat
deriving DecidableEq

def LoginResult.header : PacketHeader := ⟨46, PacketTypes.pktScLogin.value⟩
def ChatBroadcastResult.header : PacketHeader := ⟨294, PacketTypes.pktScChat.value⟩
def MoveBroadcastResult.header : PacketHeader := ⟨16, PacketTypes.pktScMove.value⟩

def LoginResult.toBytes (p : LoginResult) : List UInt8 :=
  LoginResult.header.toBytes ++ int32Bytes p.mPlayerId ++ uint32Bytes p.mPosX
    ++ uint32Bytes p.mPosY ++ p.mName.bytes

def ChatBroadcastResult.toBytes (p : ChatBroadcastResult) : List UInt8 :=
  ChatBroadcastResult.header.toBytes ++ int32Bytes p.mPlayerId ++ p.mName.bytes
    ++ p.mChat.bytes

def MoveBroadcastResult.toBytes (p : MoveBroadcastResult) : List UInt8 :=
  MoveBroadcastResult.header.toBytes ++ int32Bytes p.mPlayerId ++ uint32Bytes p.mPosX
    ++ uint32Bytes p.mPosY

/-- What the server passes around as `PacketHeader*`: one of the packets it
    builds. -/
inductive OutPacket where
  | loginResult (p : LoginResult)
  | chatBroadcastResult (p : ChatBroadcastResult)
  | moveBroadcastResult (p : MoveBroadcastResult)
deriving DecidableEq

namespace OutPacket

def header : OutPacket → PacketHeader
  | .loginResult _ => LoginResult.header
  | .chatBroadcastResult _ => ChatBroadcastResult.header
  | .moveBroadcastResult _ => MoveBroadcastResult.header

/-- `pkt->mSize`. -/
def mSize (p : OutPacket) : Int16 := p.header.mSize

/-- The struct's bytes, from `(char*)pkt` on. -/
def toBytes : OutPacket → List UInt8
  | .loginResult p => p.toBytes
  | .chatBroadcastResult p => p.toBytes
  | .moveBroadcastResult p => p.toBytes

/-- `mSize` is the struct's packed size. -/
theorem length_toBytes (p : OutPacket) : p.toBytes.length = shortToSize p.mSize := by
  have hname : maxNameLen = 30 := rfl
  have hchat : maxChatLen = 256 := rfl
  cases p with
  | loginResult p =>
      have : shortToSize (OutPacket.loginResult p).mSize = 46 := by rfl
      simp [toBytes, LoginResult.toBytes, p.mName.size, sizeofPacketHeader, hname, this]
  | chatBroadcastResult p =>
      have : shortToSize (OutPacket.chatBroadcastResult p).mSize = 294 := by rfl
      simp [toBytes, ChatBroadcastResult.toBytes, p.mName.size, p.mChat.size,
        sizeofPacketHeader, hname, hchat, this]
  | moveBroadcastResult p =>
      have : shortToSize (OutPacket.moveBroadcastResult p).mSize = 16 := by rfl
      simp [toBytes, MoveBroadcastResult.toBytes, sizeofPacketHeader, this]

theorem mSize_pos (p : OutPacket) : 0 < shortToSize p.mSize := by
  cases p with
  | loginResult p => exact (by decide : 0 < shortToSize LoginResult.header.mSize)
  | chatBroadcastResult p => exact (by decide : 0 < shortToSize ChatBroadcastResult.header.mSize)
  | moveBroadcastResult p => exact (by decide : 0 < shortToSize MoveBroadcastResult.header.mSize)

theorem sizeofPacketHeader_le (p : OutPacket) : sizeofPacketHeader ≤ p.toBytes.length := by
  rw [p.length_toBytes]
  cases p with
  | loginResult p => exact (by decide : sizeofPacketHeader ≤ shortToSize LoginResult.header.mSize)
  | chatBroadcastResult p =>
      exact (by decide : sizeofPacketHeader ≤ shortToSize ChatBroadcastResult.header.mSize)
  | moveBroadcastResult p =>
      exact (by decide : sizeofPacketHeader ≤ shortToSize MoveBroadcastResult.header.mSize)

/-- No packet is longer than a chat. -/
theorem length_toBytes_le (p : OutPacket) : p.toBytes.length ≤ 294 := by
  rw [p.length_toBytes]
  cases p with
  | loginResult p => exact (by decide : shortToSize LoginResult.header.mSize ≤ 294)
  | chatBroadcastResult p => exact (by decide : shortToSize ChatBroadcastResult.header.mSize ≤ 294)
  | moveBroadcastResult p => exact (by decide : shortToSize MoveBroadcastResult.header.mSize ≤ 294)

/-- The header comes first. -/
theorem take_toBytes (p : OutPacket) : p.toBytes.take sizeofPacketHeader = p.header.toBytes := by
  cases p with
  | loginResult p =>
      rw [toBytes, LoginResult.toBytes, List.append_assoc, List.append_assoc, List.append_assoc]
      exact List.take_left' (PacketHeader.length_toBytes _)
  | chatBroadcastResult p =>
      rw [toBytes, ChatBroadcastResult.toBytes, List.append_assoc, List.append_assoc]
      exact List.take_left' (PacketHeader.length_toBytes _)
  | moveBroadcastResult p =>
      rw [toBytes, MoveBroadcastResult.toBytes, List.append_assoc, List.append_assoc]
      exact List.take_left' (PacketHeader.length_toBytes _)

theorem ofBytes_toBytes (p : OutPacket) : PacketHeader.ofBytes p.toBytes = p.header := by
  rw [← PacketHeader.ofBytes_take p.toBytes (Nat.le_refl sizeofPacketHeader), p.take_toBytes,
    PacketHeader.ofBytes_toBytes]

def mPlayerId : OutPacket → Int32
  | .loginResult p => p.mPlayerId
  | .chatBroadcastResult p => p.mPlayerId
  | .moveBroadcastResult p => p.mPlayerId

/-- `mPlayerId` comes right after the header in each of them. -/
theorem int32At_toBytes (p : OutPacket) : int32At p.toBytes sizeofPacketHeader = p.mPlayerId := by
  cases p with
  | loginResult p =>
      rw [toBytes, LoginResult.toBytes, List.append_assoc, List.append_assoc, List.append_assoc]
      exact int32At_of_eq rfl (PacketHeader.length_toBytes _)
  | chatBroadcastResult p =>
      rw [toBytes, ChatBroadcastResult.toBytes, List.append_assoc, List.append_assoc]
      exact int32At_of_eq rfl (PacketHeader.length_toBytes _)
  | moveBroadcastResult p =>
      rw [toBytes, MoveBroadcastResult.toBytes, List.append_assoc, List.append_assoc]
      exact int32At_of_eq rfl (PacketHeader.length_toBytes _)

end OutPacket
end EasyGameServer
