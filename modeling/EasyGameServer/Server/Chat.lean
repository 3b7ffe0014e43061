/-
  EasyGameServer.Server.Chat

  What becomes of a chat text.  `mChat` is 256 raw bytes of the packet, and the
  handler copies them with `strcpy_s`.  Any of the 256 positions may hold the
  terminator: then the handler relays the text before it, under the name of
  the session's player.  Without one the C runtime ends the process.
-/

import EasyGameServer.Server.Moving
import EasyGameServer.Server.Deadlock

namespace EasyGameServer

open Lib

namespace World

variable {w : World} {this : SessionId} {bytes : List UInt8} {rest : CircularBuffer}

/-- The packet the handler relays. -/
def chatResult (inPacket : ChatBroadcastRequest) (session : ClientSession)
    (mChat : CString maxChatLen) : ChatBroadcastResult where
  mPlayerId := inPacket.mPlayerId
  mName := (CString.zeros maxNameLen maxNameLen_pos).copy session.mPlayerName
  mChat := mChat

/-- The handler after the two checks it returns from. -/
theorem handlerPktCsChat_of_read
    (hread : (w.sessions this).mRecvBuffer.read sizeofChatBroadcastRequest = some (bytes, rest))
    (hpid : (ChatBroadcastRequest.ofBytes bytes).mPlayerId = (w.sessions this).mPlayerId) :
    handlerPktCsChat this w =
      (strcpyS (.zeros maxChatLen maxChatLen_pos)
        (ChatBroadcastRequest.ofBytes bytes).mChat.bytes).map
        (fun chat => (w.consumed this .pktCsChat bytes rest).relay this
          (.chatBroadcastResult
            (chatResult (.ofBytes bytes) (w.sessions this) chat))) := by
  have hself := sessions_consumed_self w this .pktCsChat bytes rest
  have hif : ¬ (ChatBroadcastRequest.ofBytes bytes).mPlayerId
      ≠ ((w.consumed this .pktCsChat bytes rest).sessions this).mPlayerId := by
    rw [hself]
    exact fun hne => hne hpid
  apply (withPacket_of_some hread .pktCsChat _).trans
  apply (if_neg hif).trans
  rw [hself]
  cases strcpyS (.zeros maxChatLen maxChatLen_pos)
      (ChatBroadcastRequest.ofBytes bytes).mChat.bytes with
  | none => rfl
  | some chat => rfl

/-- **Chat texts.**  Whatever a chat packet in the session's own name holds in
    its 256 bytes of text, the handler completes and relays the text up to its
    terminator if and only if there is a terminator in them. -/
theorem chat_relayed_iff (w : World) (this : SessionId) (bytes : List UInt8)
    (rest : CircularBuffer)
    (hread : (w.sessions this).mRecvBuffer.read sizeofChatBroadcastRequest = some (bytes, rest))
    (hpid : (ChatBroadcastRequest.ofBytes bytes).mPlayerId = (w.sessions this).mPlayerId) :
    (∃ outPacket : ChatBroadcastResult,
        handlerPktCsChat this w = some ((w.consumed this .pktCsChat bytes rest).relay this
          (.chatBroadcastResult outPacket)) ∧
        outPacket.mPlayerId = (w.sessions this).mPlayerId ∧
        outPacket.mName.text = (w.sessions this).mPlayerName.text ∧
        outPacket.mChat.text = (ChatBroadcastRequest.ofBytes bytes).mChat.bytes.takeWhile (· ≠ 0)) ↔
      (0 : UInt8) ∈ (ChatBroadcastRequest.ofBytes bytes).mChat.bytes := by
  have hcopies := strcpyS_isSome_iff (.zeros maxChatLen maxChatLen_pos)
    (Nat.le_of_eq (ChatBroadcastRequest.ofBytes bytes).mChat.size)
  rw [handlerPktCsChat_of_read hread hpid, ← hcopies]
  constructor
  · rintro ⟨outPacket, hrelay, -⟩
    obtain ⟨chat, hcopy, -⟩ := Option.map_eq_some_iff.mp hrelay
    rw [hcopy]
    rfl
  · intro hsome
    obtain ⟨chat, hcopy⟩ := Option.isSome_iff_exists.mp hsome
    refine ⟨chatResult (.ofBytes bytes) (w.sessions this) chat, ?_, hpid,
      CString.text_copy _ _, text_strcpyS hcopy⟩
    rw [hcopy]
    rfl

end World

namespace Server

/-- A chat of player 7 with this text. -/
def chatBytes (mChat : List UInt8) : List UInt8 := [8, 1, 11, 0, 7, 0, 0, 0] ++ mChat

/-- Player 7 has logged in, and has sent nothing since. -/
theorem exists_loggedIn :
    ∃ st, system.run (new 0 (fun _ => true) onePlayer) loginEvents = some st ∧ Listening st ∧
      (st.world.sessions 0).mPlayerId = 7 := by
  have hrun : (system.run (new 0 (fun _ => true) onePlayer) loginEvents).map
      (fun st => (st.clientThread, st.world.outbox.isEmpty, (st.world.sessions 0).mConnected,
        decide (st.world.os.recvs = [⟨0, 0, BUFSIZE⟩]), (st.world.sessions 0).mPlayerId))
      = some (.sleeping true, true, true, true, 7) := by
    decide +kernel
  have hempty : (system.run (new 0 (fun _ => true) onePlayer) loginEvents).map
      (fun st => ((st.world.recv 0).mBufferEnd, (st.world.recv 0).mARegionPointer,
        (st.world.recv 0).mARegionSize, (st.world.recv 0).mBRegionPointer,
        (st.world.recv 0).mBRegionSize)) = some (BUFSIZE, 0, 0, none, 0) := by
    decide +kernel
  obtain ⟨st, hst, hall⟩ := Option.map_eq_some_iff.mp hrun
  rw [hst, Option.map_some, Option.some.injEq] at hempty
  simp only [Prod.mk.injEq, decide_eq_true_eq, List.isEmpty_iff] at hall hempty
  obtain ⟨hthread, houtbox, hconn, hposts, hplayer⟩ := hall
  obtain ⟨hend, hA, hASize, hB, hBSize⟩ := hempty
  have hrecv : st.world.recv 0 = .new BUFSIZE (st.world.recv 0).mBuffer := by
    generalize st.world.recv 0 = cb at hend hA hASize hB hBSize ⊢
    cases cb
    cases hend
    cases hA
    cases hASize
    cases hB
    cases hBSize
    rfl
  exact ⟨st, hst, .of_new (.run (.init ⟨_, _, _, rfl⟩) hst) hthread houtbox hconn hrecv hposts,
    hplayer⟩

/-- The player's next receive brings a chat. -/
theorem exists_chat_received (mChat : List UInt8) (hlen : mChat.length = maxChatLen) :
    ∃ st rest, system.Reachable st ∧ st.clientThread = .reading 0 ∧
      (st.world.sessions 0).mPlayerId = 7 ∧
      (st.world.sessions 0).mRecvBuffer.read sizeofChatBroadcastRequest
        = some (chatBytes mChat, rest) := by
  obtain ⟨st, -, hlistening, hplayer⟩ := exists_loggedIn
  have hbytes : (chatBytes mChat).length = sizeofChatBroadcastRequest := by
    rw [chatBytes, List.length_append, hlen]
    rfl
  obtain ⟨st', rfl, hreach, hv, hc, -⟩ := hlistening.receive (chatBytes mChat)
    (List.append_ne_nil_of_left_ne_nil (List.cons_ne_nil _ _) _) (by rw [hbytes]; decide)
  have hstored := congrArg List.length hc
  rw [CircularBuffer.length_contents, hbytes] at hstored
  obtain ⟨rest, hread, -⟩ := CircularBuffer.read_spec hv (Nat.le_of_eq hstored.symm)
  rw [hc, ← hbytes, List.take_length, hbytes] at hread
  have hsteady := World.steady_recvCompletion st.world ⟨0, 0, BUFSIZE⟩ false (chatBytes mChat)
  refine ⟨_, rest, hreach, rfl, ?_, hread⟩
  exact (congrArg Profile.mPlayerId (hsteady.profile 0)).trans hplayer

/-- A player says "hi". -/
theorem chat_relayed_iff_hi :
    ∃ st outPacket, system.Reachable st ∧ st.clientThread = .reading 0 ∧
      (∃ w, World.handlerPktCsChat 0 st.world
        = some (World.relay w 0 (.chatBroadcastResult outPacket))) ∧
      outPacket.mChat.text = [104, 105] := by
  obtain ⟨st, rest, hreach, hthread, hplayer, hread⟩ :=
    exists_chat_received ([104, 105] ++ List.replicate 254 0) (by
      rw [List.length_append, List.length_replicate]
      rfl)
  obtain ⟨outPacket, hrelay, -, -, htext⟩ := (World.chat_relayed_iff st.world 0 _ rest hread
    (hplayer ▸ by decide)).mpr (by decide)
  exact ⟨st, outPacket, hreach, hthread, ⟨_, hrelay⟩, htext.trans (by decide)⟩

/-- A player logs in and sends 256 bytes of text without a terminator. -/
theorem chat_not_relayed :
    ∃ st this bytes rest, system.Reachable st ∧ st.clientThread = .reading this ∧
      (st.world.sessions this).mRecvBuffer.read sizeofChatBroadcastRequest = some (bytes, rest) ∧
      PacketHeader.ofBytes bytes
        = ⟨Int16.ofNat sizeofChatBroadcastRequest, PacketTypes.pktCsChat.value⟩ ∧
      (ChatBroadcastRequest.ofBytes bytes).mPlayerId = (st.world.sessions this).mPlayerId ∧
      World.handlerPktCsChat this st.world = none := by
  obtain ⟨st, rest, hreach, hthread, hplayer, hread⟩ :=
    exists_chat_received (List.replicate 256 65) List.length_replicate
  have hpid : (ChatBroadcastRequest.ofBytes (chatBytes (List.replicate 256 65))).mPlayerId
      = (st.world.sessions 0).mPlayerId := by
    rw [hplayer]
    decide
  refine ⟨st, 0, _, rest, hreach, hthread, hread, by decide, hpid, ?_⟩
  have hcopy : strcpyS (.zeros maxChatLen maxChatLen_pos)
      (ChatBroadcastRequest.ofBytes (chatBytes (List.replicate 256 65))).mChat.bytes = none := by
    decide +kernel
  rw [World.handlerPktCsChat_of_read hread hpid, hcopy]
  rfl

end Server
end EasyGameServer
