/-
  EasyGameServer.Game

  The whole game: the server, the network, and for every session a Cocos
  client with its two threads.  The keyboard makes a client send requests; the
  server's receives bring their bytes, in pieces of any size; what the server
  sends comes back to the network threads, which post functions to the Cocos
  threads, and these move the sprites from which the next key starts.

  So nothing is left open about what the server reads: each session hears the
  requests of its own client and nothing else.
-/

import EasyGameServer.HelloWorld
import EasyGameServer.Network
import EasyGameServer.Server.Hearing
import EasyGameServer.Server.Survival

namespace EasyGameServer

open Lib

structure Game where
  net : Network
  scenes : SessionId → HelloWorld
  /-- How many of the functions posted to it a Cocos thread has performed. -/
  performed : SessionId → Nat
  /-- What the clients have called `send` with. -/
  requests : SessionId → List (List UInt8)
  /-- The bytes `::send` has accepted. -/
  outgoing : SessionId → List UInt8
  /-- How many of them the server's receives have brought. -/
  received : SessionId → Nat

namespace Game

inductive Event where
  | server (e : Server.Event)
  | recv (i : SessionId) (len : Nat)
  /-- The Cocos thread performs the next function posted to it. -/
  | perform (i : SessionId)
  | key (i : SessionId) (keyCode : HelloWorld.KeyCode) (rand : Nat) (sock : TcpClient.Socket)

/-- A receive of the server brings what its client sends next. -/
def brings (g : Game) : Server.Event → Bool
  | .recvCompletion post _ data =>
      data.isPrefixOf ((g.outgoing post.owner).drop (g.received post.owner))
  | _ => true

/-- A client calls `send`. -/
def send (g : Game) (i : SessionId) (sock : TcpClient.Socket) (sendData : List UInt8) : Game :=
  { g with
    requests := fun j => if j = i then g.requests i ++ [sendData] else g.requests j
    outgoing := fun j =>
      if j = i then g.outgoing i ++ TcpClient.sent sock sendData else g.outgoing j }

section Send

variable (g : Game) {i j : SessionId} (sock : TcpClient.Socket) (sendData : List UInt8)

@[simp] theorem requests_send_self :
    (g.send i sock sendData).requests i = g.requests i ++ [sendData] := if_pos rfl

@[simp] theorem requests_send_of_ne (h : j ≠ i) :
    (g.send i sock sendData).requests j = g.requests j := if_neg h

@[simp] theorem outgoing_send_self :
    (g.send i sock sendData).outgoing i = g.outgoing i ++ TcpClient.sent sock sendData := if_pos rfl

@[simp] theorem outgoing_send_of_ne (h : j ≠ i) :
    (g.send i sock sendData).outgoing j = g.outgoing j := if_neg h

end Send

def step (arith : FloatArith) (g : Game) : Event → Option Game
  | .server e =>
      if g.brings e then
        (g.net.step (.server e)).map (fun net =>
          { g with
            net := net
            received := fun i => g.received i + (Server.heard i e).length })
      else none
  | .recv i len => (g.net.step (.recv i len)).map (fun net => { g with net := net })
  | .perform i =>
      match (g.net.clients i).calls[g.performed i]? with
      | none => none
      | some call =>
          some { g with
            scenes := fun j => if j = i then (g.scenes i).perform call else g.scenes j
            performed := fun j => if j = i then g.performed i + 1 else g.performed j }
  | .key i keyCode rand sock =>
      match ((g.scenes i).onKeyReleased arith rand keyCode).bind
          (Request.sendData (g.net.clients i).mLoginId) with
      | none => some g
      | some sendData => some (g.send i sock sendData)

structure Start (g : Game) : Prop where
  net : Network.Start g.net
  scenes : ∀ i, ∃ pos, g.scenes i = .init pos
  performed : ∀ i, g.performed i = 0
  requests : ∀ i, g.requests i = []
  outgoing : ∀ i, g.outgoing i = []
  received : ∀ i, g.received i = 0

def system (arith : FloatArith) : System Game Event where
  init := Start
  step := step arith

/-- What the system must do for every client to be served: what is left of the
    conditions of an orderly run. -/
structure Serves (st : Server) (a : Server.Event) : Prop where
  noOverlap : Server.NoOverlap st a
  wholeSends : Server.WholeSends st a
  lingerSet : Server.LingerSet st a
  takesUnlisted : Server.TakesUnlisted st a

def Fair (g : Game) : Event → Prop
  | .server e => Serves g.net.server e
  | .key _ _ _ sock => sock.TakesAll
  | _ => True

variable {arith : FloatArith} {g g' : Game} {i : SessionId}

-- ============================================================================
-- What the server hears
-- ============================================================================

theorem heard_comes_next {e : Server.Event} (h : g.brings e = true) (i : SessionId) :
    Server.heard i e <+: (g.outgoing i).drop (g.received i) := by
  cases e with
  | recvCompletion post dwError data =>
      show (if post.owner = i then data else []) <+: _
      split
      next howner =>
        rw [← howner]
        exact List.isPrefixOf_iff_prefix.mp h
      next => exact List.nil_prefix
  | _ => exact List.nil_prefix

end Game

namespace Server

variable {st : Server} {i this : SessionId} {packets : List (List UInt8)} {arrived : List UInt8}

/-- What a handler reads is one of the requests. -/
theorem Listens.mem_of_reads (h : st.Listens this packets arrived)
    (hpk : ∀ p ∈ packets, World.Conforming p) (hthread : st.clientThread = .reading this)
    {r : World.Registered} {bytes : List UInt8} (hreads : World.Reads st.world this r bytes) :
    bytes ∈ packets ∧ World.registered? (PacketHeader.ofBytes bytes).mType = some r := by
  have hinv := h.live (Or.inl hthread)
  obtain ⟨rest, hpackets, hpre⟩ := hinv.rest
  have hrest : ∀ p ∈ rest, World.Conforming p := fun p hp =>
    hpk p (hpackets ▸ List.mem_append_right _ hp)
  obtain ⟨p, rest', r', rfl, hr', hle, htake, -⟩ :=
    World.conforming_of_dispatched hrest hpre hreads.dispatched
  obtain rfl : r' = r := Option.some.inj (hr'.symm.trans hreads.registered)
  obtain ⟨after, hread⟩ := hreads.read
  have hsize : r'.size ≤ (st.world.recv this).getStoredSize := by
    rw [← CircularBuffer.length_contents]
    exact hle
  obtain ⟨after', hread', -⟩ := CircularBuffer.read_spec hinv.valid hsize
  obtain rfl : bytes = p := by
    rw [← htake]
    exact congrArg Prod.fst (Option.some.inj (hread.symm.trans hread'))
  refine ⟨hpackets ▸ List.mem_append_right _ List.mem_cons_self, ?_⟩
  rw [← htake, PacketHeader.ofBytes_take _ r'.sizeofPacketHeader_le_size]
  exact hr'

/-- A session hears these requests, of which so many bytes have come. -/
structure Hears (st : Server) (i : SessionId) (requests : List (List UInt8)) (received : Nat) :
    Prop where
  requested : ∀ p ∈ requests, Requested p
  received_le : received ≤ requests.flatten.length
  listens : st.Listens i requests (requests.flatten.take received)

variable {requests : List (List UInt8)} {received : Nat}

theorem Hears.conforming (h : st.Hears i requests received) :
    ∀ p ∈ requests, World.Conforming p := fun p hp => (h.requested p hp).conforming

/-- The server takes a step, which brings what the client has sent next. -/
theorem Hears.step (h : st.Hears i requests received) {e : Event} {st' : Server}
    (hsound : Sound st) (hstep : st.step e = some st')
    (hbrings : heard i e <+: requests.flatten.drop received) :
    st'.Hears i requests (received + (heard i e).length) := by
  have htake : requests.flatten.take (received + (heard i e).length)
      = requests.flatten.take received ++ heard i e := by
    rw [List.take_add, ← List.prefix_iff_eq_take.mp hbrings]
  refine ⟨h.requested, ?_, ?_⟩
  · have hle := hbrings.length_le
    have hold := h.received_le
    rw [List.length_drop] at hle
    omega
  · rw [htake]
    refine h.listens.step hsound h.conforming hstep ?_
    rw [← htake]
    exact List.take_prefix _ _

/-- Nothing has come of what is sent now. -/
theorem Hears.more (h : st.Hears i requests received) {sent : List (List UInt8)}
    (hsent : ∀ p ∈ sent, Requested p) : st.Hears i (requests ++ sent) received := by
  refine ⟨?_, ?_, ?_⟩
  · intro p hp
    rcases List.mem_append.mp hp with hp | hp
    · exact h.requested p hp
    · exact hsent p hp
  · rw [List.flatten_append, List.length_append]
    exact Nat.le_trans h.received_le (Nat.le_add_right _ _)
  · rw [List.flatten_append, List.take_append_of_le_length h.received_le]
    exact h.listens.more (fun p hp => (hsent p hp).conforming)

/-- Nobody has sent anything. -/
theorem hears_new (tick : UInt32) (answers : Nat → Bool) (players : Players) (i : SessionId) :
    (new tick answers players).Hears i [] 0 :=
  ⟨nofun, Nat.le_refl 0, listens_new tick answers players i⟩

/-- Nobody speaks for player −1. -/
theorem namesSomebody_of_hears (h : ∀ i, ∃ requests received, st.Hears i requests received)
    (a : Event) : NamesSomebody st a := by
  cases a with
  | read =>
      intro this r bytes hthread hreads hr _
      obtain ⟨requests, received, hhears⟩ := h this
      obtain ⟨hmem, hregistered⟩ := hhears.listens.mem_of_reads hhears.conforming hthread hreads
      exact (hhears.requested bytes hmem).named r hregistered hr
  | _ => trivial

/-- `OnRead` returns, and the process goes on. -/
theorem Hears.onRead_returns (h : st.Hears i requests received)
    (hthread : st.clientThread = .reading i) :
    ∃ n w, loop (World.onReadBody i) n st.world = some (some w) := by
  have hinv := h.listens.live (Or.inl hthread)
  obtain ⟨rest, hpackets, hpre⟩ := hinv.rest
  have hrest : ∀ p ∈ rest, World.Conforming p := fun p hp =>
    h.conforming p (hpackets ▸ List.mem_append_right _ hp)
  obtain ⟨n, r, hloop⟩ := ((World.progresses_iff hinv.valid).mpr
    (fun hs => World.not_stuck_of_conforming hs hrest hpre)).1
  have hnone := hinv.returns h.conforming hloop (fun p hp => (h.requested p hp).terminated _)
  obtain ⟨w, rfl⟩ := Option.ne_none_iff_exists'.mp hnone
  exact ⟨n, w, hloop⟩

/-- What has been read are the requests, and between reads those that have come
    whole. -/
theorem Hears.parsedBy (h : st.Hears i requests received) :
    st.world.parsedBy i <+: requests ∧
      (st.Live i → st.clientThread ≠ .reading i →
        st.world.parsedBy i = complete requests received) := by
  refine ⟨h.listens.parsed, fun hlive hidle => ?_⟩
  have hparsed := (h.listens.live hlive).parsedBy_eq (decide_eq_false hidle)
  have hlen : (requests.flatten.take received).length = received := by
    rw [List.length_take, Nat.min_eq_left h.received_le]
  rw [← hlen]
  exact hparsed

end Server

namespace Game

variable {arith : FloatArith} {g g' : Game} {i : SessionId}

/-- Every session hears its client's requests, and the network's part of the
    game is an orderly run. -/
structure Heard (g : Game) : Prop where
  orderly : Network.system.ReachableBy Network.Orderly g.net
  outgoing : ∀ i, g.outgoing i = (g.requests i).flatten
  hears : ∀ i, g.net.server.Hears i (g.requests i) (g.received i)

theorem heard_start (h : Start g) : Heard g := by
  obtain ⟨hnet, -, -, hrequests, houtgoing, hreceived⟩ := h
  obtain ⟨⟨⟨tick, answers, players, hserver⟩, -⟩, -⟩ := id hnet
  refine ⟨.init hnet, ?_, ?_⟩
  · intro i
    rw [houtgoing, hrequests]
    rfl
  · intro i
    rw [hserver, hrequests, hreceived]
    exact Server.hears_new tick answers players i

/-- The server takes a step. -/
theorem Heard.server (h : Heard g) {e : Server.Event} (hok : Serves g.net.server e)
    (hbrings : g.brings e = true) {net : Network} (hstep : g.net.step (.server e) = some net) :
    Heard { g with
      net := net
      received := fun i => g.received i + (Server.heard i e).length } := by
  obtain ⟨server, hserver, heq⟩ := Option.map_eq_some_iff.mp hstep
  have hsound := Server.sound_of_reachable
    (Network.reachableBy_server h.orderly).of_startingWith.reachable
  have hnamed := Server.namesSomebody_of_hears (fun i => ⟨_, _, h.hears i⟩) e
  refine ⟨?_, h.outgoing, ?_⟩
  · exact h.orderly.step (a := .server e)
      ⟨hok.noOverlap, hok.wholeSends, hok.lingerSet, hnamed, hok.takesUnlisted⟩ hstep
  · intro i
    show net.server.Hears i (g.requests i) (g.received i + (Server.heard i e).length)
    rw [← heq]
    apply (h.hears i).step hsound hserver
    rw [← h.outgoing]
    exact heard_comes_next hbrings i

/-- A client sends a request. -/
theorem Heard.send (h : Heard g) {sock : TcpClient.Socket} (hsock : sock.TakesAll)
    {sendData : List UInt8} (hdata : Requested sendData) (i : SessionId) :
    Heard (g.send i sock sendData) := by
  have hsent := TcpClient.sent_of_takesAll hsock sendData
  refine ⟨h.orderly, fun j => ?_, fun j => ?_⟩
  · by_cases hj : j = i
    · rw [hj, outgoing_send_self, requests_send_self, hsent, h.outgoing, List.flatten_append,
        List.flatten_singleton]
    · rw [outgoing_send_of_ne g sock sendData hj, requests_send_of_ne g sock sendData hj]
      exact h.outgoing j
  · by_cases hj : j = i
    · rw [hj, requests_send_self]
      exact (h.hears i).more (List.forall_mem_singleton.mpr hdata)
    · rw [requests_send_of_ne g sock sendData hj]
      exact h.hears j

theorem isInvariant_heard (arith : FloatArith) : (system arith).IsInvariant Fair Heard where
  init _ h := heard_start h
  step := by
    intro g a g' _ h hok hstep
    cases a with
    | server e =>
        simp only [system, step] at hstep
        split at hstep
        next hbrings =>
          obtain ⟨net, hnet, heq⟩ := Option.map_eq_some_iff.mp hstep
          cases heq
          exact h.server hok hbrings hnet
        next => cases hstep
    | recv i len =>
        obtain ⟨net, hnet, heq⟩ := Option.map_eq_some_iff.mp hstep
        cases heq
        have hserver : net.server = g.net.server := Network.server_recv hnet
        refine ⟨h.orderly.step (a := .recv i len) trivial hnet, h.outgoing, fun j => ?_⟩
        rw [hserver]
        exact h.hears j
    | perform i =>
        simp only [system, step] at hstep
        split at hstep
        · cases hstep
        · cases hstep
          exact ⟨h.orderly, h.outgoing, h.hears⟩
    | key i keyCode rand sock =>
        simp only [system, step] at hstep
        split at hstep
        · cases hstep
          exact h
        next sendData hsome =>
          cases hstep
          obtain ⟨request, hrequest, hdata⟩ := Option.bind_eq_some_iff.mp hsome
          exact h.send hok (Request.requested (HelloWorld.fits_onKeyReleased hrequest) hdata) i

-- ============================================================================
-- A game
-- ============================================================================

/-- Is it fair, as far as the server goes? -/
def isFair (g : Game) : Event → Bool
  | .server e => Network.isOrderly g.net (.server e)
  | _ => true

def Event.TakesAll : Event → Prop
  | .key _ _ _ sock => sock.TakesAll
  | _ => True

theorem fair_of_isFair {e : Event} (he : e.TakesAll) (g : Game) (h : isFair g e = true) :
    Fair g e := by
  cases e with
  | server a =>
      have horderly := Network.orderly_of_isOrderly g.net (.server a) h
      exact ⟨horderly.noOverlap, horderly.wholeSends, horderly.lingerSet, horderly.takesUnlisted⟩
  | key i keyCode rand sock => exact he
  | _ => trivial

/-- A socket that accepts what it is offered. -/
def wholeSocket : TcpClient.Socket where
  send _ len := len
  bounded _ _ hpos _ := ⟨hpos, Int.le_refl _⟩

/-- Sums that have a zero on the left. -/
def fromZero : FloatArith where
  add x y := if x = 0 then y else x
  sub x y := if x = 0 then y ^^^ 0x80000000 else x

/-- One player, and every sprite at the origin. -/
def newGame : Game where
  net :=
    { server := .new 0 (fun _ => true)
        (fun pid => if pid = 1000 then some ⟨[65], 0, 0, 0, []⟩ else none)
      clients := fun _ => .new (fun _ => 0)
      arrived := fun _ => 0 }
  scenes _ := .init (0, 0)
  performed _ := 0
  requests _ := []
  outgoing _ := []
  received _ := 0

theorem start_newGame : Start newGame :=
  ⟨⟨⟨⟨_, _, _, rfl⟩, rfl⟩, fun _ => ⟨_, rfl⟩, fun _ => rfl⟩, fun _ => ⟨_, rfl⟩, fun _ => rfl,
    fun _ => rfl, fun _ => rfl, fun _ => rfl⟩

def press (i : SessionId) (keyCode : HelloWorld.KeyCode) : Event := .key i keyCode 0 wholeSocket

/-- Two clients come; the first logs in, its request in two pieces. -/
def loginEvents : List Event :=
  [.accept 5, .produceAccepted, .takeAccepted (fun _ => 0) (fun _ => 0), .accept 6,
      .produceAccepted, .takeAccepted (fun _ => 0) (fun _ => 0), .flush].map Event.server ++
    press 0 .keyL ::
    [.recvCompletion ⟨0, 0, BUFSIZE⟩ false [8, 0, 1], .read,
      .recvCompletion ⟨0, 3, BUFSIZE - 3⟩ false [0, 232, 3, 0, 0], .read, .produceRequest,
      .consumeRequest, .execute false, .produceResult, .read, .timer 100, .task, .period 100,
      .dispatch, .produceRequest, .dispatch, .consumeRequest, .execute false, .produceResult,
      .wake, .flush, .sendCompletion ⟨0, 46⟩ false 46].map Event.server

/-- It moves up, and the first bytes of the request arrive. -/
def moveEvents : List Event :=
  [.recv 0 4096, press 0 .keyUpArrow,
    .server (.recvCompletion ⟨0, 0, BUFSIZE⟩ false [16, 0, 21, 0, 232]), .server .read]

theorem takesAll_loginEvents : ∀ e ∈ loginEvents, e.TakesAll := by
  simp [loginEvents, press, Event.TakesAll, TcpClient.Socket.TakesAll, wholeSocket]

theorem takesAll_moveEvents : ∀ e ∈ moveEvents, e.TakesAll := by
  simp [moveEvents, press, Event.TakesAll, TcpClient.Socket.TakesAll, wholeSocket]

-- ============================================================================
-- Whole runs
-- ============================================================================

/-- **What the server reads.**  In every fair run of the game the packets a
    session has read are its client's requests, each once, whole and in order;
    while the session waits for more, they are those whose last byte has come;
    and every `OnRead` returns, with the process going on. -/
theorem requests_read (arith : FloatArith) (g : Game) (h : (system arith).ReachableBy Fair g)
    (i : SessionId) :
    g.net.server.world.parsedBy i <+: g.requests i ∧
      (g.net.server.Live i → g.net.server.clientThread ≠ .reading i →
        g.net.server.world.parsedBy i = complete (g.requests i) (g.received i)) ∧
      (g.net.server.clientThread = .reading i →
        ∃ n w, loop (World.onReadBody i) n g.net.server.world = some (some w)) := by
  have hhears := ((isInvariant_heard arith).holds h).hears i
  obtain ⟨hparsed, hidle⟩ := hhears.parsedBy
  exact ⟨hparsed, hidle, hhears.onRead_returns⟩

/-- The login has been read, and not yet the move, of which five bytes have
    arrived. -/
theorem requests_read_login :
    ∃ g, (system fromZero).ReachableBy Fair g ∧ (g.requests 0).length = 2 ∧
      g.net.server.world.parsedBy 0 <+: g.requests 0 ∧
      g.net.server.world.parsedBy 0 = complete (g.requests 0) 13 := by
  have hrun : ((system fromZero).runIf isFair newGame (loginEvents ++ moveEvents)).map
      (fun g => ((g.requests 0).length, g.received 0, (g.net.server.world.sessions 0).mConnected,
        (World.Receiver.posts g.net.server.world 0).isEmpty, g.net.server.clientThread))
        = some (2, 13, true, false, .sleeping true) := by
    decide +kernel
  obtain ⟨g, hg, hall⟩ := Option.map_eq_some_iff.mp hrun
  simp only [Prod.mk.injEq, List.isEmpty_eq_false_iff] at hall
  obtain ⟨hlen, hreceived, hconn, hposts, hthread⟩ := hall
  have hreach : (system fromZero).ReachableBy Fair g :=
    (System.ReachableBy.init start_newGame).runIf_of_mem
      (fun e he => fair_of_isFair (List.forall_mem_append.mpr
        ⟨takesAll_loginEvents, takesAll_moveEvents⟩ e he)) hg
  obtain ⟨hfront, hidle, -⟩ := requests_read fromZero g hreach 0
  have hnot : g.net.server.clientThread ≠ .reading 0 := by
    rw [hthread]
    nofun
  have hparsed := hidle (Or.inr ⟨hconn, hposts⟩) hnot
  rw [hreceived] at hparsed
  exact ⟨g, hreach, hlen, hfront, hparsed⟩

end Game
end EasyGameServer
