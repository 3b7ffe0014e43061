/-
  EasyGameServer.TcpClient.Posting

  What the Cocos client does with the packets it handles: a LOGIN result makes
  it a player, chats and moves are functions it posts to the Cocos thread.  All
  that it has done follows from the bytes it has handled, in their order, and
  so, where these are packets of the server, from the packets.
-/

import EasyGameServer.TcpClient.Dispatch

namespace EasyGameServer

open Lib

/-- Who a client is, and what it has posted. -/
structure Outcome where
  mLoginId : Int32
  calls : List SceneCall

namespace Outcome

/-- A client that has handled nothing. -/
def start : Outcome := ⟨-1, []⟩

def login (o : Outcome) (mPlayerId : Int32) : Outcome := { o with mLoginId := mPlayerId }

def post (o : Outcome) (call : SceneCall) : Outcome := { o with calls := o.calls ++ [call] }

/-- A move is posted as the player's own, or as a peer's. -/
def move (o : Outcome) (mPlayerId : Int32) (x y : CFloat) : Outcome :=
  o.post (if mPlayerId = o.mLoginId then .updateMe x y else .updatePeer mPlayerId x y)

/-- After these bytes. -/
def handle (o : Outcome) (recvData : List UInt8) : Outcome :=
  let mType := (PacketHeader.ofBytes recvData).mType
  if mType = PacketTypes.pktScLogin.value then
    o.login (Received.LoginResult.ofBytes recvData).mPlayerId
  else if mType = PacketTypes.pktScChat.value then
    let p := Received.ChatBroadcastResult.ofBytes recvData
    o.post (.chatDraw p.mName p.mChat)
  else if mType = PacketTypes.pktScMove.value then
    let p := Received.MoveBroadcastResult.ofBytes recvData
    o.move p.mPlayerId p.mPosX p.mPosY
  else o

/-- After this packet. -/
def see (o : Outcome) : OutPacket → Outcome
  | .loginResult q => o.login q.mPlayerId
  | .chatBroadcastResult q => o.post (.chatDraw q.mName.toCharArray q.mChat.toCharArray)
  | .moveBroadcastResult q => o.move q.mPlayerId q.mPosX q.mPosY

theorem handle_toBytes (o : Outcome) (p : OutPacket) : o.handle p.toBytes = o.see p := by
  have hheader : PacketHeader.ofBytes p.toBytes = p.header := p.ofBytes_toBytes
  unfold handle
  rw [hheader]
  cases p with
  | loginResult q =>
      have htype : (OutPacket.loginResult q).header = LoginResult.header := rfl
      have hread : Received.LoginResult.ofBytes (OutPacket.loginResult q).toBytes = _ :=
        q.ofBytes_toBytes
      rw [htype, hread]
      exact if_pos (by decide)
  | chatBroadcastResult q =>
      have htype : (OutPacket.chatBroadcastResult q).header = ChatBroadcastResult.header := rfl
      have hread : Received.ChatBroadcastResult.ofBytes (OutPacket.chatBroadcastResult q).toBytes
          = _ := q.ofBytes_toBytes
      rw [htype, hread]
      rfl
  | moveBroadcastResult q =>
      have htype : (OutPacket.moveBroadcastResult q).header = MoveBroadcastResult.header := rfl
      have hread : Received.MoveBroadcastResult.ofBytes (OutPacket.moveBroadcastResult q).toBytes
          = _ := q.ofBytes_toBytes
      rw [htype, hread]
      rfl

theorem foldl_handle_toBytes (o : Outcome) (packets : List OutPacket) :
    (packets.map OutPacket.toBytes).foldl handle o = packets.foldl see o := by
  rw [List.foldl_map]
  congr 1
  funext o p
  exact o.handle_toBytes p

/-- Nothing that has been posted is withdrawn. -/
theorem calls_prefix_handle (o : Outcome) (recvData : List UInt8) :
    o.calls <+: (o.handle recvData).calls := by
  unfold handle
  simp only
  split
  · exact List.prefix_refl _
  · split
    · exact List.prefix_append _ _
    · split
      · exact List.prefix_append _ _
      · exact List.prefix_refl _

end Outcome

namespace TcpClient

variable {client client' : TcpClient}

def outcome (client : TcpClient) : Outcome := ⟨client.mLoginId, client.calls⟩

/-- What the client has done is what the bytes it has handled do. -/
structure Posted (client : TcpClient) : Prop where
  valid : client.mRecvBuffer.Valid
  outcome : client.outcome = client.dispatched.foldl Outcome.handle .start

theorem posted_new (mem : Nat → UInt8) : Posted (new mem) :=
  ⟨CircularBuffer.valid_new _ mem, rfl⟩

-- ============================================================================
-- One iteration
-- ============================================================================

theorem outcome_handleLogin (recvData : List UInt8) (client : TcpClient) :
    (handleLogin recvData client).outcome
      = client.outcome.login (Received.LoginResult.ofBytes recvData).mPlayerId := rfl

theorem outcome_handleMove (recvData : List UInt8) (client : TcpClient) :
    (handleMove recvData client).outcome
      = client.outcome.move (Received.MoveBroadcastResult.ofBytes recvData).mPlayerId
          (Received.MoveBroadcastResult.ofBytes recvData).mPosX
          (Received.MoveBroadcastResult.ofBytes recvData).mPosY := by
  unfold handleMove Outcome.move
  simp only
  split
  next hme =>
    rw [show client.outcome.mLoginId = client.mLoginId from rfl, if_pos hme]
    rfl
  next hpeer =>
    rw [show client.outcome.mLoginId = client.mLoginId from rfl, if_neg hpeer]
    rfl

/-- The iteration leaves with the client as it is, or handles one packet. -/
structure Handles (client : TcpClient) (it : Iter TcpClient (Option TcpClient)) : Prop where
  leaves : ∀ client', it = .leave (some client') → client' = client
  handles : ∀ client', it = .again client' → client'.mRecvBuffer.Valid ∧
    ∃ recvData, client'.dispatched = client.dispatched ++ [recvData] ∧
      client'.outcome = client.outcome.handle recvData

theorem handles_leave {r : Option TcpClient} (h : ∀ client', r = some client' → client' = client) :
    Handles client (.leave r) where
  leaves client' heq := h client' (Iter.leave.inj heq)
  handles _ heq := nomatch heq

/-- A struct that is read off has the type that was peeked at. -/
theorem handles_takePacket (hv : client.mRecvBuffer.Valid) {size : Nat}
    (hsize : sizeofPacketHeader ≤ size) {blank : List UInt8}
    {handle : List UInt8 → TcpClient → TcpClient} (hframes : Frames handle)
    (houtcome : ∀ recvData rest,
      PacketHeader.ofBytes recvData = PacketHeader.ofBytes client.mRecvBuffer.contents →
      (handle recvData (client.logged recvData rest)).outcome = client.outcome.handle recvData) :
    Handles client (client.takePacket false size blank handle) := by
  unfold takePacket
  by_cases hstored : size ≤ client.mRecvBuffer.getStoredSize
  · obtain ⟨rest, hread, hvalid, -⟩ := CircularBuffer.read_spec hv hstored
    have hinto : client.readInto size blank = (true, client.mRecvBuffer.contents.take size,
        client.logged (client.mRecvBuffer.contents.take size) rest) := by
      simp only [readInto, hread]
    rw [hinto]
    simp only
    split
    · exact handles_leave (by simp)
    · refine ⟨by simp, fun client' heq => ?_⟩
      cases heq
      obtain ⟨hbuffer, hlog⟩ := hframes (client.mRecvBuffer.contents.take size)
        (client.logged (client.mRecvBuffer.contents.take size) rest)
      refine ⟨?_, _, hlog, houtcome _ rest (PacketHeader.ofBytes_take _ hsize)⟩
      rw [hbuffer]
      exact hvalid
  · have hinto : client.readInto size blank = (false, blank, client) := by
      simp only [readInto, CircularBuffer.read_none (Nat.lt_of_not_le hstored)]
    rw [hinto, if_pos ⟨rfl, fun h => Bool.false_ne_true h.1⟩]
    exact handles_leave (by simp)

theorem handles_processPacketBody (hv : client.mRecvBuffer.Valid) :
    Handles client (processPacketBody false client) := by
  by_cases hstored : sizeofPacketHeader ≤ client.mRecvBuffer.contents.length
  · rw [processPacketBody_of_header hstored rfl]
    split
    · exact handles_leave (fun _ h => (Option.some.inj h).symm)
    · split
      next hlogin =>
        refine handles_takePacket hv (by decide) frames_handleLogin (fun recvData rest heq => ?_)
        rw [Outcome.handle, heq, if_pos hlogin]
        exact outcome_handleLogin recvData _
      next hlogin =>
        split
        next hchat =>
          refine handles_takePacket hv (by decide) frames_handleChat (fun recvData rest heq => ?_)
          rw [Outcome.handle, heq, if_neg hlogin, if_pos hchat]
          rfl
        next hchat =>
          split
          next hmove =>
            refine handles_takePacket hv (by decide) frames_handleMove
              (fun recvData rest heq => ?_)
            rw [Outcome.handle, heq, if_neg hlogin, if_neg hchat, if_pos hmove]
            exact outcome_handleMove recvData _
          next => exact handles_leave nofun
  · rw [processPacketBody_short (Nat.lt_of_not_le hstored)]
    exact handles_leave (fun _ h => (Option.some.inj h).symm)

-- ============================================================================
-- The thread
-- ============================================================================

/-- Some packets later. -/
structure Follows (client client' : TcpClient) : Prop where
  posted : client'.Posted
  calls : client.calls <+: client'.calls

theorem Follows.handle (h : Follows client client') {client'' : TcpClient}
    (hvalid : client''.mRecvBuffer.Valid) {recvData : List UInt8}
    (hdispatched : client''.dispatched = client'.dispatched ++ [recvData])
    (houtcome : client''.outcome = client'.outcome.handle recvData) : Follows client client'' where
  posted := by
    refine ⟨hvalid, ?_⟩
    rw [houtcome, hdispatched, List.foldl_append, ← h.posted.outcome]
    rfl
  calls := by
    have hmore := client'.outcome.calls_prefix_handle recvData
    rw [← houtcome] at hmore
    exact h.calls.trans hmore

theorem Follows.processPacket (h : Follows client client') {bound : Nat} {client'' : TcpClient}
    (hloop : loop (processPacketBody false) bound client' = some (some client'')) :
    Follows client client'' := by
  refine loop_result (Follows client) (fun r => ∀ c, r = some c → Follows client c)
    (fun s s' hs hagain => ?_) (fun s r hs hleave c hc => ?_) h hloop client'' rfl
  · obtain ⟨hvalid, recvData, hdispatched, houtcome⟩ :=
      (handles_processPacketBody hs.posted.valid).handles s' hagain
    exact hs.handle hvalid hdispatched houtcome
  · rw [hc] at hleave
    rw [(handles_processPacketBody hs.posted.valid).leaves c hleave]
    exact hs

/-- Whatever arrives, in whatever pieces. -/
theorem follows_networkThread (h : client.Posted) {bound : Nat} {chunks : List (List UInt8)}
    (hthread : networkThread false bound client chunks = some client') :
    Follows client client' := by
  suffices hfrom : ∀ c, Follows client c → networkThread false bound c chunks = some client' →
      Follows client client' from hfrom client ⟨h, List.prefix_refl _⟩ hthread
  clear hthread
  induction chunks with
  | nil =>
      intro c hc heq
      cases heq
      exact hc
  | cons inBuf chunks ih =>
      intro c hc heq
      simp only [networkThread] at heq
      split at heq
      · cases heq
      · split at heq
        next client₁ hloop =>
          have hvalid := (CircularBuffer.write_spec hc.posted.valid inBuf inBuf.length
            (Nat.le_refl _)).1
          have hwritten : Follows client
              { c with mRecvBuffer := (c.mRecvBuffer.write inBuf inBuf.length).2 } :=
            ⟨⟨hvalid, hc.posted.outcome⟩, hc.calls⟩
          exact ih client₁ (hwritten.processPacket hloop) heq
        next => cases heq

end TcpClient
end EasyGameServer
