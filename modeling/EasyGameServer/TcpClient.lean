/-
  EasyGameServer.TcpClient

  The receiving side of the Cocos client, `TcpClient.cpp`: `networkThread`
  writes what `recv` brings into the client's `CircularBuffer`, the same class
  as the server's, and `processPacket` takes whole packets off it.

  An assertion that fails ends the program, unless the build has defined
  `NDEBUG`.  Whatever the pieces in which the server's packets arrive, none
  does: the buffer has room for every piece, and each packet is handled once,
  when its last byte has come.
-/

import EasyGameServer.CircularBuffer.Valid
import EasyGameServer.PacketType.Received
import EasyGameServer.Lib.Frames
import EasyGameServer.Lib.Loop

namespace EasyGameServer

open Lib

/-- What `processPacket` has the Cocos thread do. -/
inductive SceneCall where
  | chatDraw (sender : CharArray maxNameLen) (msg : CharArray maxChatLen)
  | updateMe (x y : CFloat)
  | updatePeer (id : Int32) (x y : CFloat)

structure TcpClient where
  mRecvBuffer : CircularBuffer
  mLoginId : Int32
  calls : List SceneCall
  /-- The packets that were handled, byte by byte. -/
  dispatched : List (List UInt8)

namespace TcpClient

def BUF_SIZE : Nat := 32768

/-- The size of `inBuf`. -/
def inBufSize : Nat := 4096

/-- The constructor; `mem` is what the buffer's array happens to contain. -/
def new (mem : Nat → UInt8) : TcpClient where
  mRecvBuffer := .new BUF_SIZE mem
  mLoginId := -1
  calls := []
  dispatched := []

/-- What `processPacket` asserts of a packet it has read. -/
def Asserts (recvData : List UInt8) : Prop := int32At recvData sizeofPacketHeader ≠ -1

instance (recvData : List UInt8) : Decidable (Asserts recvData) :=
  inferInstanceAs (Decidable (¬ _))

/-- The client after it has read these bytes off its buffer. -/
def logged (client : TcpClient) (recvData : List UInt8) (rest : CircularBuffer) : TcpClient :=
  { client with
    mRecvBuffer := rest
    dispatched := client.dispatched ++ [recvData] }

/-- `m_recvBuffer.Read` into a struct of this size, filled by its constructor. -/
def readInto (client : TcpClient) (size : Nat) (blank : List UInt8) :
    Bool × List UInt8 × TcpClient :=
  match client.mRecvBuffer.read size with
  | none => (false, blank, client)
  | some (recvData, rest) => (true, recvData, client.logged recvData rest)

/-- How each case of `processPacket` starts: read the struct, and assert that
    this succeeded and that somebody is named. -/
def takePacket (ndebug : Bool) (client : TcpClient) (size : Nat) (blank : List UInt8)
    (handle : List UInt8 → TcpClient → TcpClient) : Iter TcpClient (Option TcpClient) :=
  let r := client.readInto size blank
  if ndebug = false ∧ ¬ (r.1 = true ∧ Asserts r.2.1) then .leave none
  else .again (handle r.2.1 r.2.2)

def handleLogin (recvData : List UInt8) (client : TcpClient) : TcpClient :=
  { client with mLoginId := (Received.LoginResult.ofBytes recvData).mPlayerId }

def handleChat (recvData : List UInt8) (client : TcpClient) : TcpClient :=
  let p := Received.ChatBroadcastResult.ofBytes recvData
  { client with calls := client.calls ++ [.chatDraw p.mName p.mChat] }

def handleMove (recvData : List UInt8) (client : TcpClient) : TcpClient :=
  let p := Received.MoveBroadcastResult.ofBytes recvData
  if p.mPlayerId = client.mLoginId then
    { client with calls := client.calls ++ [.updateMe p.mPosX p.mPosY] }
  else
    { client with calls := client.calls ++ [.updatePeer p.mPlayerId p.mPosX p.mPosY] }

/-- One iteration of the loop of `processPacket`; it leaves with the client, or
    with `none` when an assertion has failed. -/
def processPacketBody (ndebug : Bool) (client : TcpClient) : Iter TcpClient (Option TcpClient) :=
  match client.mRecvBuffer.peek sizeofPacketHeader with
  | none => .leave (some client)
  | some bytes =>
      let header := PacketHeader.ofBytes bytes
      if shortToSize header.mSize > client.mRecvBuffer.getStoredSize then
        .leave (some client)
      else if header.mType = PacketTypes.pktScLogin.value then
        client.takePacket ndebug sizeofLoginResult Received.LoginResult.blank handleLogin
      else if header.mType = PacketTypes.pktScChat.value then
        client.takePacket ndebug sizeofChatBroadcastResult Received.ChatBroadcastResult.blank
          handleChat
      else if header.mType = PacketTypes.pktScMove.value then
        client.takePacket ndebug sizeofMoveBroadcastResult Received.MoveBroadcastResult.blank
          handleMove
      else if ndebug then .again client
      else .leave none

/-- `networkThread`, whose calls of `recv` bring these pieces; `bound` is how
    many iterations each `processPacket` may make.  `none` when an assertion
    fails or `processPacket` makes more. -/
def networkThread (ndebug : Bool) (bound : Nat) : TcpClient → List (List UInt8) → Option TcpClient
  | client, [] => some client
  | client, inBuf :: chunks =>
      let r := client.mRecvBuffer.write inBuf inBuf.length
      if ndebug = false ∧ r.1 = false then none
      else
        match loop (processPacketBody ndebug) bound { client with mRecvBuffer := r.2 } with
        | some (some client') => networkThread ndebug bound client' chunks
        | _ => none

end TcpClient
end EasyGameServer
