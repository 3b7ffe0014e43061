/-
  EasyGameServer.Network

  The server with its clients.  Every session has a Cocos client at the other
  end of its connection, whose `recv` brings it what the system has been given
  for that session, in order and in pieces of any size, and which hands each
  piece to `processPacket`.

  In an orderly run no client's assertion fails, and each handles whole packets
  as they were sent.  The chats and moves any of them has handled lie next to
  each other in the one order of the server's broadcasts, and they begin with
  the first of them after the step in which its session came: two clients never
  see two of them the other way round, and none misses one in between.
-/

import EasyGameServer.Server.Lines
import EasyGameServer.TcpClient.Dispatch

namespace EasyGameServer

open Lib
open OutPacket (stream stream_append)

structure Network where
  server : Server
  clients : SessionId → TcpClient
  /-- How many bytes each client has received. -/
  arrived : SessionId → Nat

namespace Network

inductive Event where
  | server (e : Server.Event)
  /-- The `recv` of a client brings the next bytes, so many at most. -/
  | recv (i : SessionId) (len : Nat)

/-- What the system has been given for a session and its client has not got. -/
def inFlight (net : Network) (i : SessionId) : List UInt8 :=
  (net.server.world.os.transmitted i).drop (net.arrived i)

def step (net : Network) : Event → Option Network
  | .server e => (net.server.step e).map (fun server => { net with server := server })
  | .recv i len =>
      let inBuf := (net.inFlight i).take len
      if 1 ≤ inBuf.length ∧ inBuf.length ≤ TcpClient.inBufSize then
        (TcpClient.networkThread false (TcpClient.BUF_SIZE + 1) (net.clients i) [inBuf]).map
          (fun client =>
            { net with
              clients := fun j => if j = i then client else net.clients j
              arrived := fun j => if j = i then net.arrived i + inBuf.length else net.arrived j })
      else none

/-- A server on a table without a player −1, and clients that have received
    nothing. -/
def Start (net : Network) : Prop :=
  (Server.system.startingWith Server.Nobody).init net.server ∧
    (∀ i, ∃ mem, net.clients i = .new mem) ∧ ∀ i, net.arrived i = 0

def system : System Network Event where
  init := Start
  step := step

/-- The server's steps are orderly. -/
def Orderly (net : Network) : Event → Prop
  | .server e => net.server.Orderly e
  | .recv _ _ => True

variable {net net' : Network} {i : SessionId}

/-- A client's `recv` is nothing to the server. -/
theorem server_recv {len : Nat} (h : net.step (.recv i len) = some net') :
    net'.server = net.server := by
  simp only [step] at h
  split at h
  next =>
    obtain ⟨client, -, heq⟩ := Option.map_eq_some_iff.mp h
    cases heq
    rfl
  next => cases h

/-- The server runs as it does alone. -/
theorem reachableBy_server (h : system.ReachableBy Orderly net) :
    (Server.system.startingWith Server.Nobody).ReachableBy Server.Orderly net.server := by
  induction h with
  | init h => exact .init h.1
  | @step net net' e _ hok hstep ih =>
      cases e with
      | server e =>
          obtain ⟨server, hserver, heq⟩ := Option.map_eq_some_iff.mp hstep
          cases heq
          exact .step ih hok hserver
      | recv i len =>
          simp only [system, step] at hstep
          split at hstep
          next =>
            obtain ⟨client, -, heq⟩ := Option.map_eq_some_iff.mp hstep
            cases heq
            exact ih
          next => cases hstep

-- ============================================================================
-- Server and client
-- ============================================================================

/-- A client has handled the first of its session's packets, and its buffer
    holds what else has arrived. -/
structure Linked (net : Network) (i : SessionId) (since : Nat) (handled rest : List OutPacket) :
    Prop where
  served : net.server.Served i since (handled ++ rest)
  midway : (net.clients i).Midway handled rest
  waiting : (net.clients i).Waiting rest
  arrived_le : net.arrived i ≤ (net.server.world.os.transmitted i).length
  arrived : (net.server.world.os.transmitted i).take (net.arrived i)
    = stream handled ++ (net.clients i).mRecvBuffer.contents

end Network

namespace TcpClient

variable {client : TcpClient} {handled rest : List OutPacket}

/-- Nobody knows what packets are still to come. -/
theorem Midway.more (h : client.Midway handled rest) (more : List OutPacket) :
    client.Midway handled (rest ++ more) where
  valid := h.valid
  capacity := h.capacity
  dispatched := h.dispatched
  contents := by
    rw [stream_append]
    exact h.contents.trans (List.prefix_append _ _)

theorem Waiting.more (h : client.Waiting rest) (hmid : client.Midway handled rest)
    (more : List OutPacket) : client.Waiting (rest ++ more) := by
  unfold Waiting at h ⊢
  cases rest with
  | nil =>
      have hempty : client.mRecvBuffer.contents = [] := List.prefix_nil.mp hmid.contents
      cases more with
      | nil => exact h
      | cons p more =>
          have hheader := p.sizeofPacketHeader_le
          have hfour : sizeofPacketHeader = 4 := rfl
          rw [hempty]
          exact complete_cons_of_lt (by
            rw [List.length_nil]
            omega) _
  | cons p rest =>
      rw [List.map_cons, complete] at h
      rw [List.cons_append, List.map_cons, complete]
      split at h
      next => cases h
      next hshort => exact if_neg hshort

end TcpClient

namespace Network

variable {net net' : Network} {i : SessionId} {since : Nat} {handled rest : List OutPacket}

/-- Nothing has happened to a session and its client. -/
theorem Linked.congr (h : Linked net i since handled rest) (hserver : net'.server = net.server)
    (hclient : net'.clients i = net.clients i) (harrived : net'.arrived i = net.arrived i) :
    Linked net' i since handled rest := by
  refine ⟨?_, ?_, ?_, ?_, ?_⟩
  · rw [hserver]
    exact h.served
  · rw [hclient]
    exact h.midway
  · rw [hclient]
    exact h.waiting
  · rw [hserver, harrived]
    exact h.arrived_le
  · rw [hserver, hclient, harrived]
    exact h.arrived

/-- What arrives next is what the client waits for. -/
theorem Linked.prefix_take (h : Linked net i since handled rest) (len : Nat) :
    (net.clients i).mRecvBuffer.contents ++ (net.inFlight i).take len <+: stream rest := by
  have hsent := h.served.line.transmitted_prefix
  rw [stream_append] at hsent
  have hcut : stream handled ++ ((net.clients i).mRecvBuffer.contents ++
      (net.inFlight i).take len) <+: net.server.world.os.transmitted i := by
    rw [← List.append_assoc, ← h.arrived]
    conv => rhs; rw [← List.take_append_drop (net.arrived i) (net.server.world.os.transmitted i)]
    exact (List.prefix_append_right_inj _).mpr (List.take_prefix _ _)
  exact (List.prefix_append_right_inj _).mp (hcut.trans hsent)

/-- A piece that arrives is handled. -/
theorem Linked.recv (h : Linked net i since handled rest) {len : Nat}
    (hlen : ((net.inFlight i).take len).length ≤ TcpClient.inBufSize) :
    ∃ client now rest', TcpClient.networkThread false (TcpClient.BUF_SIZE + 1) (net.clients i)
        [(net.inFlight i).take len] = some client ∧
      rest = now ++ rest' ∧ client.Midway (handled ++ now) rest' ∧ client.Waiting rest' ∧
      (net.clients i).mRecvBuffer.contents ++ (net.inFlight i).take len
        = stream now ++ client.mRecvBuffer.contents := by
  have hflat : [(net.inFlight i).take len].flatten = (net.inFlight i).take len :=
    List.append_nil _
  have hchunks : ∀ chunk ∈ [(net.inFlight i).take len], chunk.length ≤ TcpClient.inBufSize := by
    intro chunk hchunk
    rw [List.mem_singleton.mp hchunk]
    exact hlen
  have hpre := h.prefix_take len
  rw [← hflat] at hpre
  have hspec := TcpClient.networkThread_spec h.midway h.waiting false
    (fun p hp => h.served.named p (List.mem_append_right _ hp)) hchunks hpre
  rw [hflat] at hspec
  exact hspec

/-- The piece has arrived. -/
theorem Linked.arrive (h : Linked net i since handled rest) {len : Nat} {client : TcpClient}
    {now rest' : List OutPacket} (hrest : rest = now ++ rest')
    (hmid : client.Midway (handled ++ now) rest') (hwaiting : client.Waiting rest')
    (hcontents : (net.clients i).mRecvBuffer.contents ++ (net.inFlight i).take len
      = stream now ++ client.mRecvBuffer.contents)
    (hclient : net'.clients i = client) (hserver : net'.server = net.server)
    (harrived : net'.arrived i = net.arrived i + ((net.inFlight i).take len).length) :
    Linked net' i since (handled ++ now) rest' := by
  have hle := h.arrived_le
  have hflight : ((net.inFlight i).take len).length
      ≤ (net.server.world.os.transmitted i).length - net.arrived i := by
    rw [List.length_take, inFlight, List.length_drop]
    exact Nat.min_le_right _ _
  refine ⟨?_, ?_, ?_, ?_, ?_⟩
  · rw [hserver, List.append_assoc, ← hrest]
    exact h.served
  · rw [hclient]
    exact hmid
  · rw [hclient]
    exact hwaiting
  · rw [hserver, harrived]
    omega
  · rw [hserver, harrived, hclient, List.take_add, h.arrived, stream_append, List.append_assoc,
      List.append_assoc, ← hcontents]
    congr 2
    refine List.take_eq_take_iff.mpr ?_
    rw [List.length_take, inFlight, Nat.min_assoc, Nat.min_self]

/-- The server takes a step. -/
theorem Linked.serve (h : Linked net i since handled rest) {e : Server.Event} {server : Server}
    (hr : (Server.system.startingWith Server.Nobody).ReachableBy Server.Orderly net.server)
    (hok : net.server.Orderly e) (hstep : net.server.step e = some server) :
    ∃ more, Linked { net with server := server } i (Server.sinceAfter net.server server i since)
      handled (rest ++ more) := by
  have hreach := hr.of_startingWith.reachable
  have hregistered := Server.isInvariant_registered.holds
    (hr.of_startingWith.mono fun _ _ hok => hok.takesUnlisted)
  have hspoken := Server.isInvariant_spoken.holds
    ((hr.step hok hstep).mono fun _ _ hok => hok.namesSomebody)
  obtain ⟨more, hserved⟩ := h.served.step hreach hok hregistered hspoken hstep
  have hpre := Server.transmitted_step (Server.sound_of_reachable hreach) hstep i
  refine ⟨more, ?_, h.midway.more more, h.waiting.more h.midway more,
    Nat.le_trans h.arrived_le hpre.length_le, ?_⟩
  · rw [← List.append_assoc]
    exact hserved
  · obtain ⟨later, hlater⟩ := hpre
    show (server.world.os.transmitted i).take (net.arrived i) = _
    rw [← hlater, List.take_append_of_le_length h.arrived_le]
    exact h.arrived

theorem next_le_step {e : Event} (hr : system.ReachableBy Orderly net)
    (hstep : net.step e = some net') : net.server.world.next ≤ net'.server.world.next := by
  cases e with
  | server e =>
      obtain ⟨server, hserver, heq⟩ := Option.map_eq_some_iff.mp hstep
      cases heq
      have hreach := (reachableBy_server hr).of_startingWith.reachable
      exact Server.next_le_step (Server.sound_of_reachable hreach) hserver
  | recv j len => rw [server_recv hstep]

/-- One step later.  What a session is sent begins with the first broadcast
    after the step in which it came. -/
theorem Linked.step (h : Linked net i since handled rest) {e : Event}
    (hr : system.ReachableBy Orderly net) (hok : Orderly net e)
    (hstep : net.step e = some net') :
    ∃ since' handled' rest', Linked net' i since' handled' rest' ∧
      (i < net.server.world.next → since' = since) ∧
      (net.server.world.next ≤ i → net.server.world.next < net'.server.world.next →
        since' = net'.server.casts.length) := by
  cases e with
  | server e =>
      obtain ⟨server, hserver, heq⟩ := Option.map_eq_some_iff.mp hstep
      cases heq
      obtain ⟨more, hmore⟩ := h.serve (reachableBy_server hr) hok hserver
      refine ⟨_, handled, rest ++ more, hmore, fun hi => if_pos hi,
        fun hi _ => if_neg (Nat.not_lt.mpr hi)⟩
  | recv j len =>
      have hserver : net'.server = net.server := server_recv hstep
      suffices hlinked : ∃ handled' rest', Linked net' i since handled' rest' by
        obtain ⟨handled', rest', hlinked⟩ := hlinked
        refine ⟨since, handled', rest', hlinked, fun _ => rfl, fun _ hlt => ?_⟩
        rw [hserver] at hlt
        exact absurd hlt (Nat.lt_irrefl _)
      simp only [Network.step] at hstep
      split at hstep
      next hlen =>
        obtain ⟨client, hthread, heq⟩ := Option.map_eq_some_iff.mp hstep
        cases heq
        by_cases hi : i = j
        · subst hi
          obtain ⟨client', now, rest', hthread', hrest, hmid, hwaiting, hcontents⟩ :=
            h.recv hlen.2
          cases hthread.symm.trans hthread'
          exact ⟨_, _, h.arrive hrest hmid hwaiting hcontents (if_pos rfl) rfl (if_pos rfl)⟩
        · exact ⟨handled, rest, h.congr rfl (if_neg hi) (if_neg hi)⟩
      next => cases hstep

theorem isInvariant_linked :
    system.IsInvariant Orderly
      (fun net => ∀ i, ∃ since handled rest, Linked net i since handled rest) where
  init := by
    rintro net ⟨⟨⟨tick, answers, players, hserver⟩, -⟩, hclients, harrived⟩ i
    obtain ⟨mem, hclient⟩ := hclients i
    have hempty : (net.clients i).mRecvBuffer.contents = [] := by
      rw [hclient]
      exact CircularBuffer.contents_new _ mem
    refine ⟨0, [], [], ?_, ?_, ?_, ?_, ?_⟩
    · rw [hserver]
      exact Server.served_new tick answers players i
    · refine ⟨?_, ?_, ?_, ?_⟩
      · rw [hclient]
        exact CircularBuffer.valid_new _ mem
      · rw [hclient]
        rfl
      · rw [hclient]
        rfl
      · rw [hempty]
        exact List.nil_prefix
    · rfl
    · rw [harrived i]
      exact Nat.zero_le _
    · rw [harrived i, hempty]
      rfl
  step := by
    intro net e net' hr h hok hstep i
    obtain ⟨since, handled, rest, hlinked⟩ := h i
    obtain ⟨since', handled', rest', hlinked', -⟩ := hlinked.step hr hok hstep
    exact ⟨since', handled', rest', hlinked'⟩

/-- The bytes of chats and moves. -/
theorem filter_isBroadcastResult (packets : List OutPacket) :
    (packets.map OutPacket.toBytes).filter isBroadcastResult
      = (packets.filter OutPacket.isRelayed).map OutPacket.toBytes := by
  rw [List.filter_map]
  congr 2
  funext p
  cases p with
  | loginResult q =>
      exact eq_false_of_ne_true (fun h => (isBroadcastResult_toBytes _).mp h q rfl)
  | chatBroadcastResult q => exact (isBroadcastResult_toBytes _).mpr nofun
  | moveBroadcastResult q => exact (isBroadcastResult_toBytes _).mpr nofun

/-- When nothing is under way, everything has been handled. -/
theorem Linked.rest_eq_nil (h : Linked net i since handled rest)
    (hbuffered : net.server.buffered i = []) (hflight : net.inFlight i = []) : rest = [] := by
  have hsent := h.served.line.transmitted_of_empty hbuffered
  have harrived := h.arrived
  rw [List.take_of_length_le (List.drop_eq_nil_iff.mp hflight), hsent, stream_append,
    List.append_cancel_left_eq] at harrived
  have hwaiting := h.waiting
  rw [TcpClient.Waiting, ← harrived, stream, complete_flatten] at hwaiting
  exact List.map_eq_nil_iff.mp hwaiting

/-- The chats and moves a client has handled, as bytes and as packets. -/
theorem Linked.seen (h : Linked net i since handled rest) :
    (net.clients i).dispatched.filter isBroadcastResult
      = (handled.filter OutPacket.isRelayed).map OutPacket.toBytes := by
  rw [h.midway.dispatched, filter_isBroadcastResult]

/-- Is it orderly? -/
def isOrderly (net : Network) : Event → Bool
  | .server .flush => net.server.world.os.sends.isEmpty
  | .server (.sendCompletion post dwError cbTransferred) =>
      !dwError && decide (cbTransferred = post.len)
  | .server (.takeAccepted _ _) =>
      net.server.pendingAcceptList.consume.all
        (fun r => (net.server.world.mClientList[r.1]?).isNone)
  | .server .read =>
      Server.readsLoggedOn net.server .read &&
        net.server.clientThread.reader.all (fun this =>
          match World.onReadBody this net.server.world with
          | .again w => decide (w.os.asked ≤ net.server.world.os.asked)
          | .leave _ => true)
  | _ => true

theorem orderly_of_isOrderly (net : Network) (e : Event) (h : isOrderly net e = true) :
    Orderly net e := by
  cases e with
  | recv i len => trivial
  | server a =>
      refine ⟨?_, ?_, ?_, ?_, ?_⟩
      · cases a with
        | flush =>
            intro i _ _
            rw [Os.sendsOf, List.isEmpty_iff.mp h]
            rfl
        | _ => trivial
      · cases a with
        | sendCompletion post dwError cbTransferred =>
            simp only [isOrderly, Bool.and_eq_true, Bool.not_eq_true', decide_eq_true_eq] at h
            exact fun _ => Or.inl h
        | _ => trivial
      · cases a with
        | read =>
            intro this w hthread hbody n hle hlt
            simp only [isOrderly, hthread, ClientThread.reader, Option.all_some, hbody,
              Bool.and_eq_true, decide_eq_true_eq] at h
            -- no call is made
            exact absurd hlt (Nat.not_lt.mpr (Nat.le_trans h.2 hle))
        | _ => trivial
      · cases a with
        | read =>
            simp only [isOrderly, Bool.and_eq_true] at h
            exact Server.namesSomebody_of_loggedOn _ _ h.1
        | _ => trivial
      · cases a with
        | takeAccepted sendMem recvMem => exact Server.takesUnlisted_of_findsUnlisted _ _ h
        | _ => trivial

/-- Two clients; the first logs in as player 7 and moves. -/
def serverEvents : List Server.Event :=
  Server.loginEvents ++
    [.wake, .accept 6, .produceAccepted, .takeAccepted (fun _ => 0) (fun _ => 0), .flush,
      .recvCompletion ⟨0, 0, BUFSIZE⟩ false Server.moveBytes, .read, .read,
      .sendCompletion ⟨0, 46⟩ false 46, .wake, .flush, .sendCompletion ⟨0, 16⟩ false 16,
      .sendCompletion ⟨1, 16⟩ false 16]

/-- The second gets the move in two pieces. -/
def moveEvents : List Event :=
  serverEvents.map Event.server ++ [.recv 1 5, .recv 0 4096, .recv 1 4096]

end Network
end EasyGameServer
