/-
  EasyGameServer.Crowd

  The server and the DummyClient.  Every session's client is a dummy, which
  logs in when it is connected, reads with `async_read` and, once it is logged
  on, chats or walks whenever its timer goes off.  A `write` or a handler that
  throws ends the DummyClient: nothing follows it.

  The server's receives bring what the dummy has sent, in pieces of any size;
  an `async_read` is over when all its bytes have come, or fails.
-/

import EasyGameServer.DummyClient.OnTick
import EasyGameServer.Game

namespace EasyGameServer

open Lib
open DummyClient
open DummyClient.ClientSession (headerRead payloadRead)
open OutPacket (stream stream_append lastMove)

structure Crowd where
  server : Server
  mTotalDummyCount : Nat
  dummies : SessionId → DummyClient.ClientSession
  /-- Has `HandleConnect` been called? -/
  connected : SessionId → Bool
  /-- What the dummies have called `SendPacket` with. -/
  requests : SessionId → List (List UInt8)
  /-- How many of the requests' bytes the server's receives have brought. -/
  received : SessionId → Nat
  /-- How many of the bytes handed to the system a dummy has read. -/
  arrived : SessionId → Nat

namespace Crowd

inductive Event where
  | server (e : Server.Event)
  | connect (i : SessionId)
  /-- The outstanding `async_read` has all its bytes. -/
  | read (i : SessionId)
  /-- It fails, with so many. -/
  | readFails (i : SessionId) (len : Nat)
  /-- A wait is over; `rand` is what `rand()` returns from then on. -/
  | timer (i : SessionId) (rand : Nat → Nat)

/-- The bytes for a dummy that it has not read. -/
def inFlight (c : Crowd) (i : SessionId) : List UInt8 :=
  (c.server.world.os.transmitted i).drop (c.arrived i)

/-- A receive of the server brings what its dummy has sent next. -/
def brings (c : Crowd) : Server.Event → Bool
  | .recvCompletion post _ data =>
      data.isPrefixOf ((c.requests post.owner).flatten.drop (c.received post.owner))
  | _ => true

/-- A dummy has done something: it has read `n` bytes and sent some packets. -/
def put (c : Crowd) (i : SessionId) (s : DummyClient.ClientSession) (n : Nat)
    (sent : List (List UInt8)) : Crowd :=
  { c with
    dummies := fun j => if j = i then s else c.dummies j
    requests := fun j => if j = i then c.requests i ++ sent else c.requests j
    arrived := fun j => if j = i then c.arrived i + n else c.arrived j }

section Put

variable (c : Crowd) {i j : SessionId} (s : DummyClient.ClientSession) (n : Nat)
  (sent : List (List UInt8))

@[simp] theorem dummies_put_self : (c.put i s n sent).dummies i = s := if_pos rfl

@[simp] theorem dummies_put_of_ne (h : j ≠ i) : (c.put i s n sent).dummies j = c.dummies j :=
  if_neg h

@[simp] theorem requests_put_self : (c.put i s n sent).requests i = c.requests i ++ sent :=
  if_pos rfl

@[simp] theorem requests_put_of_ne (h : j ≠ i) : (c.put i s n sent).requests j = c.requests j :=
  if_neg h

@[simp] theorem arrived_put_self : (c.put i s n sent).arrived i = c.arrived i + n := if_pos rfl

@[simp] theorem arrived_put_of_ne (h : j ≠ i) : (c.put i s n sent).arrived j = c.arrived j :=
  if_neg h

end Put

def step (arith : FloatArith) (c : Crowd) : Event → Option Crowd
  | .server e =>
      if c.brings e then
        (c.server.step e).map (fun server =>
          { c with
            server := server
            received := fun i => c.received i + (Server.heard i e).length })
      else none
  | .connect i =>
      if c.connected i ∨ c.mTotalDummyCount ≤ i then none
      else
        some { c.put i (c.dummies i).handleConnect 0 [(c.dummies i).loginRequest] with
          connected := fun j => if j = i then true else c.connected j }
  | .read i =>
      (c.dummies i).reading.bind (fun r =>
        if (c.inFlight i).length < r.len then none
        else
          ((c.dummies i).completed r false ((c.inFlight i).take r.len)).map
            (fun s => c.put i s r.len []))
  | .readFails i len =>
      (c.dummies i).reading.bind (fun r =>
        if len < r.len then
          ((c.dummies i).completed r true ((c.inFlight i).take len)).map
            (fun s => c.put i s ((c.inFlight i).take len).length [])
        else none)
  | .timer i rand =>
      ((c.dummies i).waited arith rand).map (fun r => c.put i r.1 0 r.2.toList)

/-- The player id `ClientManager::Start` gives the dummy number `k`. -/
def playerId (k : Nat) : Int32 := Int32.ofNat (START_PLAYER_ID + k)

/-- The dummies are numbered, in whatever order they are accepted. -/
structure Start (c : Crowd) : Prop where
  server : (Server.system.startingWith Server.Nobody).init c.server
  dummies : ∃ k : SessionId → Nat, (∀ i, START_PLAYER_ID + k i < 2 ^ 31) ∧
    (∀ i j, i < c.mTotalDummyCount → j < c.mTotalDummyCount → k i = k j → i = j) ∧
    ∀ i, ∃ mReadBuf mPosX mPosY,
      c.dummies i = .create (playerId (k i)) mReadBuf mPosX mPosY
  connected : ∀ i, c.connected i = false
  requests : ∀ i, c.requests i = []
  received : ∀ i, c.received i = 0
  arrived : ∀ i, c.arrived i = 0

def system (arith : FloatArith) : System Crowd Event where
  init := Start
  step := step arith

/-- The server does what it must for every client to be served. -/
def Fair (c : Crowd) : Event → Prop
  | .server e => Game.Serves c.server e
  | _ => True

variable {arith : FloatArith} {c c' : Crowd} {i : SessionId}

-- ============================================================================
-- What a step does
-- ============================================================================

inductive Moves (arith : FloatArith) (c : Crowd) : Event → Crowd → Prop
  | server (e : Server.Event) (server : Server) (hbrings : c.brings e = true)
      (hserver : c.server.step e = some server) :
      Moves arith c (.server e)
        { c with
          server := server
          received := fun i => c.received i + (Server.heard i e).length }
  | connect (i : SessionId) (hconn : c.connected i = false) (hi : i < c.mTotalDummyCount) :
      Moves arith c (.connect i)
        { c.put i (c.dummies i).handleConnect 0 [(c.dummies i).loginRequest] with
          connected := fun j => if j = i then true else c.connected j }
  | read (i : SessionId) (r : AsyncRead) (s : DummyClient.ClientSession)
      (hreading : (c.dummies i).reading = some r) (henough : r.len ≤ (c.inFlight i).length)
      (hcompleted : (c.dummies i).completed r false ((c.inFlight i).take r.len) = some s) :
      Moves arith c (.read i) (c.put i s r.len [])
  | readFails (i : SessionId) (len : Nat) (r : AsyncRead) (s : DummyClient.ClientSession)
      (hreading : (c.dummies i).reading = some r) (hfew : len < r.len)
      (hcompleted : (c.dummies i).completed r true ((c.inFlight i).take len) = some s) :
      Moves arith c (.readFails i len) (c.put i s ((c.inFlight i).take len).length [])
  | timer (i : SessionId) (rand : Nat → Nat) (s : DummyClient.ClientSession)
      (sent : Option (List UInt8)) (hwaited : (c.dummies i).waited arith rand = some (s, sent)) :
      Moves arith c (.timer i rand) (c.put i s 0 sent.toList)

theorem step_moves {e : Event} (h : c.step arith e = some c') : Moves arith c e c' := by
  cases e with
  | server e =>
      simp only [step] at h
      split at h
      next hbrings =>
        obtain ⟨server, hserver, rfl⟩ := Option.map_eq_some_iff.mp h
        exact .server e server hbrings hserver
      next => cases h
  | connect i =>
      simp only [step] at h
      split at h
      next => cases h
      next hconn =>
        cases h
        rw [not_or, Bool.not_eq_true, Nat.not_le] at hconn
        exact .connect i hconn.1 hconn.2
  | read i =>
      obtain ⟨r, hreading, hr⟩ := Option.bind_eq_some_iff.mp h
      split at hr
      next => cases hr
      next henough =>
        obtain ⟨s, hcompleted, rfl⟩ := Option.map_eq_some_iff.mp hr
        exact .read i r s hreading (Nat.not_lt.mp henough) hcompleted
  | readFails i len =>
      obtain ⟨r, hreading, hr⟩ := Option.bind_eq_some_iff.mp h
      split at hr
      next hfew =>
        obtain ⟨s, hcompleted, rfl⟩ := Option.map_eq_some_iff.mp hr
        exact .readFails i len r s hreading hfew hcompleted
      next => cases hr
  | timer i rand =>
      obtain ⟨⟨s, sent⟩, hwaited, rfl⟩ := Option.map_eq_some_iff.mp h
      exact .timer i rand s sent hwaited

-- ============================================================================
-- What the server hears
-- ============================================================================

theorem playerId_ne {k : Nat} (h : START_PLAYER_ID + k < 2 ^ 31) : playerId k ≠ -1 := by
  intro heq
  have hid := Int32.toInt_ofNat_of_lt h
  rw [← playerId, heq] at hid
  have hneg : (-1 : Int32).toInt = -1 := by decide
  omega

theorem heard_comes_next {e : Server.Event} (h : c.brings e = true) (i : SessionId) :
    Server.heard i e <+: (c.requests i).flatten.drop (c.received i) := by
  cases e with
  | recvCompletion post dwError data =>
      show (if post.owner = i then data else []) <+: _
      split
      next howner =>
        rw [← howner]
        exact List.isPrefixOf_iff_prefix.mp h
      next => exact List.nil_prefix
  | _ => exact List.nil_prefix

/-- Every session hears its dummy's requests, and the server's part of the
    crowd is an orderly run. -/
structure Heard (c : Crowd) : Prop where
  orderly : (Server.system.startingWith Server.Nobody).ReachableBy Server.Orderly c.server
  hears : ∀ i, c.server.Hears i (c.requests i) (c.received i)

namespace Heard

/-- The server takes an orderly step. -/
theorem isOrderly (h : Heard c) {e : Server.Event} (hok : Game.Serves c.server e) :
    Server.Orderly c.server e :=
  ⟨hok.noOverlap, hok.wholeSends, hok.lingerSet,
    Server.namesSomebody_of_hears (fun i => ⟨_, _, h.hears i⟩) e, hok.takesUnlisted⟩

theorem server (h : Heard c) {e : Server.Event} (hok : Game.Serves c.server e)
    (hbrings : c.brings e = true) {server : Server} (hstep : c.server.step e = some server) :
    Heard { c with
      server := server
      received := fun i => c.received i + (Server.heard i e).length } := by
  have hsound := Server.sound_of_reachable h.orderly.of_startingWith.reachable
  refine ⟨h.orderly.step (h.isOrderly hok) hstep, fun i => ?_⟩
  exact (h.hears i).step hsound hstep (heard_comes_next hbrings i)

/-- A dummy sends packets the server likes. -/
theorem put (h : Heard c) (i : SessionId) (s : DummyClient.ClientSession) (n : Nat)
    {sent : List (List UInt8)} (hsent : ∀ data ∈ sent, Requested data) :
    Heard (c.put i s n sent) := by
  refine ⟨h.orderly, fun j => ?_⟩
  by_cases hj : j = i
  · rw [hj, requests_put_self]
    exact (h.hears i).more hsent
  · rw [requests_put_of_ne c s n sent hj]
    exact h.hears j

end Heard

-- ============================================================================
-- What a dummy has been told
-- ============================================================================

/-- How far a dummy has got with the packets that it has not handled. -/
inductive Place (s : DummyClient.ClientSession) (handled rest : List OutPacket) (arrived : Nat) :
    Prop
  | idle (hreading : s.reading = none)
  | header (hreading : s.reading = some headerRead) (harrived : arrived = (stream handled).length)
  | payload (p : OutPacket) (rest' : List OutPacket) (hrest : rest = p :: rest')
      (hreading : s.reading = some (payloadRead p))
      (hheader : slice s.mReadBuf 0 sizeofPacketHeader = p.header.toBytes)
      (harrived : arrived = (stream handled).length + sizeofPacketHeader)

/-- A dummy has handled the first of its session's packets, and reads on. -/
structure Told (server : Server) (i : SessionId) (s : DummyClient.ClientSession) (arrived : Nat)
    (connected : Bool) (id : Int32) (start : CFloat × CFloat) (handled rest : List OutPacket) :
    Prop where
  named : id ≠ -1
  served : ∃ since, Server.Served server i since (handled ++ rest)
  made : ClientSession.Made s id start handled
  place : Place s handled rest arrived
  handed : stream handled <+: server.world.os.transmitted i
  fresh : connected = false → s.reading = none ∧ handled = [] ∧ arrived = 0

namespace Told

variable {server : Server} {s s' : DummyClient.ClientSession} {arrived : Nat} {connected : Bool}
  {id : Int32} {start : CFloat × CFloat} {handled rest : List OutPacket}

theorem transmitted (h : Told server i s arrived connected id start handled rest) :
    server.world.os.transmitted i <+: stream handled ++ stream rest := by
  rw [← stream_append]
  obtain ⟨since, hserved⟩ := h.served
  exact hserved.line.transmitted_prefix

/-- Only a dummy that is connected reads. -/
theorem isConnected (h : Told server i s arrived connected id start handled rest) {r : AsyncRead}
    (hreading : s.reading = some r) : connected = true := by
  cases connected with
  | true => rfl
  | false => cases (h.fresh rfl).1.symm.trans hreading

/-- The server takes a step, and may have more to tell. -/
theorem serve (h : Told server i s arrived connected id start handled rest) {e : Server.Event}
    {server' : Server}
    (hr : (Server.system.startingWith Server.Nobody).ReachableBy Server.Orderly server)
    (hok : Server.Orderly server e) (hstep : server.step e = some server') :
    ∃ more, Told server' i s arrived connected id start handled (rest ++ more) := by
  have hreach := hr.of_startingWith.reachable
  have hregistered := Server.isInvariant_registered.holds
    (hr.of_startingWith.mono fun _ _ hok => hok.takesUnlisted)
  have hspoken := Server.isInvariant_spoken.holds
    ((hr.step hok hstep).mono fun _ _ hok => hok.namesSomebody)
  obtain ⟨since, hwas⟩ := h.served
  obtain ⟨more, hserved⟩ := hwas.step hreach hok hregistered hspoken hstep
  have hpre := Server.transmitted_step (Server.sound_of_reachable hreach) hstep i
  refine ⟨more, h.named, ?_, h.made, ?_, h.handed.trans hpre, h.fresh⟩
  · rw [← List.append_assoc]
    exact ⟨_, hserved⟩
  · cases h.place with
    | idle hreading => exact .idle hreading
    | header hreading harrived => exact .header hreading harrived
    | payload p rest' hrest hreading hheader harrived =>
        exact .payload p (rest' ++ more) (by rw [hrest, List.cons_append]) hreading hheader harrived

theorem connect (h : Told server i s arrived false id start handled rest) :
    Told server i s.handleConnect (arrived + 0) true id start handled rest := by
  obtain ⟨-, hhandled, harrived⟩ := h.fresh rfl
  refine ⟨h.named, h.served, h.made.congr rfl rfl, .header rfl ?_, h.handed, nofun⟩
  rw [hhandled, harrived]
  rfl

/-- The dummy waits no longer. -/
theorem timer (h : Told server i s arrived connected id start handled rest) {rand : Nat → Nat}
    {sent : Option (List UInt8)} (hwaited : s.waited arith rand = some (s', sent)) :
    Told server i s' (arrived + 0) connected id start handled rest := by
  obtain ⟨hreading, hbuf, hpayloads, hown⟩ := ClientSession.own_waited hwaited h.made.mLogon
  refine ⟨h.named, h.served, h.made.congr hpayloads hown, ?_, h.handed, ?_⟩
  · cases h.place with
    | idle hidle => exact .idle (hreading.trans hidle)
    | header hread harrived => exact .header (hreading.trans hread) harrived
    | payload p rest' hrest hread hheader harrived =>
        exact .payload p rest' hrest (hreading.trans hread) (hbuf ▸ hheader) harrived
  · intro hconn
    rw [hreading]
    exact h.fresh hconn

/-- The dummy reads no more. -/
theorem fails (h : Told server i s arrived connected id start handled rest) {r : AsyncRead}
    (hreading : s.reading = some r) {data : List UInt8}
    (hcompleted : s.completed r true data = some s') :
    Told server i s' (arrived + data.length) connected id start handled rest := by
  obtain ⟨hidle, hpayloads, hown⟩ := ClientSession.completed_error hcompleted
  refine ⟨h.named, h.served, h.made.congr hpayloads hown, .idle hidle, h.handed, ?_⟩
  rw [h.isConnected hreading]
  nofun

/-- The outstanding read has all its bytes. -/
theorem read (h : Told server i s arrived connected id start handled rest) {r : AsyncRead}
    (hreading : s.reading = some r)
    (henough : r.len ≤ ((server.world.os.transmitted i).drop arrived).length) :
    ∃ s' now rest', s.completed r false (((server.world.os.transmitted i).drop arrived).take r.len)
        = some s' ∧ rest = now ++ rest' ∧
      Told server i s' (arrived + r.len) connected id start (handled ++ now) rest' := by
  have hconn := h.isConnected hreading
  have hline := h.transmitted
  cases h.place with
  | idle hidle => cases hidle.symm.trans hreading
  | header hread harrived =>
      obtain rfl : r = headerRead := Option.some.inj (hreading.symm.trans hread)
      subst harrived
      -- four bytes have come, so there is a packet
      cases hrest : rest with
      | nil =>
          have hnil : stream [] = [] := rfl
          rw [hrest, hnil, List.append_nil] at hline
          rw [List.drop_of_length_le hline.length_le] at henough
          exact absurd henough (by decide)
      | cons p rest' =>
          have hstream : stream (p :: rest') = p.toBytes.take sizeofPacketHeader ++
              (p.toBytes.drop sizeofPacketHeader ++ stream rest') := by
            rw [← List.append_assoc, List.take_append_drop]
            rfl
          have hlen : (p.toBytes.take sizeofPacketHeader).length = headerRead.len := by
            rw [List.length_take, Nat.min_eq_left p.sizeofPacketHeader_le]
            rfl
          rw [hrest, hstream] at hline
          rw [← hlen] at henough ⊢
          obtain ⟨s', hcompleted, hreading', hpayloads, hheader⟩ :=
            ClientSession.completed_header s p
          refine ⟨s', [], p :: rest', ?_, rfl, ?_⟩
          · rw [next_of_cut hline henough]
            exact hcompleted
          · rw [List.append_nil]
            refine ⟨h.named, hrest ▸ h.served,
              h.made.congr hpayloads (ClientSession.own_completed_header hcompleted),
              .payload p rest' rfl hreading' hheader ?_, h.handed, ?_⟩
            · rw [hlen]
              rfl
            · rw [hconn]
              nofun
  | payload p rest' hrest hread hheader harrived =>
      obtain rfl : r = payloadRead p := Option.some.inj (hreading.symm.trans hread)
      have hheaderLen : (p.toBytes.take sizeofPacketHeader).length = sizeofPacketHeader := by
        rw [List.length_take, Nat.min_eq_left p.sizeofPacketHeader_le]
      have hlen : (p.toBytes.drop sizeofPacketHeader).length = (payloadRead p).len :=
        List.length_drop
      have hsplit : stream handled ++ stream rest
          = (stream handled ++ p.toBytes.take sizeofPacketHeader) ++
            (p.toBytes.drop sizeofPacketHeader ++ stream rest') := by
        rw [hrest, List.append_assoc, ← List.append_assoc (p.toBytes.take _),
          List.take_append_drop]
        rfl
      have hat : arrived = (stream handled ++ p.toBytes.take sizeofPacketHeader).length := by
        rw [List.length_append, hheaderLen]
        exact harrived
      have hstream : stream (handled ++ [p]) = (stream handled ++ p.toBytes.take sizeofPacketHeader)
          ++ p.toBytes.drop sizeofPacketHeader := by
        rw [stream_append, List.append_assoc, List.take_append_drop, OutPacket.stream_singleton]
      rw [hsplit] at hline
      obtain ⟨s', hcompleted, hreading', hpayloads⟩ := ClientSession.completed_payload s p hheader
      have hown := ClientSession.own_completed_payload hheader hcompleted
      refine ⟨s', [p], rest', ?_, hrest, ?_⟩
      · rw [← hlen] at henough ⊢
        rw [hat] at henough ⊢
        rw [next_of_cut hline henough]
        exact hcompleted
      · refine ⟨h.named, ?_, h.made.see hpayloads hown, .header hreading' ?_, ?_, ?_⟩
        · rw [List.append_assoc, List.singleton_append, ← hrest]
          exact h.served
        · rw [hstream, List.length_append, ← hat, hlen]
        · rw [hstream]
          refine List.prefix_of_prefix_length_le ?_ hline ?_
          · rw [← List.append_assoc]
            exact List.prefix_append _ _
          · rw [List.length_append, ← hat, hlen]
            rw [List.length_drop] at henough
            have hpos := ClientSession.payloadRead_pos p
            omega
        · rw [hconn]
          nofun

end Told

-- ============================================================================
-- Every dummy in every run
-- ============================================================================

/-- The server hears the dummies, and every dummy has been told the first of
    its session's packets. -/
structure Followed (c : Crowd) : Prop where
  heard : Heard c
  told : ∀ i, ∃ id start handled rest,
    Told c.server i (c.dummies i) (c.arrived i) (c.connected i) id start handled rest

theorem followed_start (h : Start c) : Followed c := by
  obtain ⟨hserver, ⟨k, hk, -, hdummies⟩, hconnected, hrequests, hreceived, harrived⟩ := h
  obtain ⟨⟨tick, answers, players, heq⟩, -⟩ := id hserver
  refine ⟨⟨.init hserver, fun i => ?_⟩, fun i => ?_⟩
  · rw [heq, hrequests, hreceived]
    exact Server.hears_new tick answers players i
  · obtain ⟨mReadBuf, mPosX, mPosY, hdummy⟩ := hdummies i
    refine ⟨playerId (k i), (mPosX, mPosY), [], [], playerId_ne (hk i), ?_, ?_, ?_, ?_, ?_⟩
    · rw [heq]
      exact ⟨0, Server.served_new tick answers players i⟩
    · rw [hdummy]
      exact ⟨rfl, rfl⟩
    · rw [hdummy]
      exact .idle rfl
    · exact List.nil_prefix
    · intro _
      rw [hdummy]
      exact ⟨rfl, rfl, harrived i⟩

/-- One dummy has done something, and the others nothing. -/
theorem told_put {connected : SessionId → Bool} {s : DummyClient.ClientSession} {n : Nat}
    (sent : List (List UInt8))
    (h : ∀ j, ∃ id start handled rest,
      Told c.server j (c.dummies j) (c.arrived j) (c.connected j) id start handled rest)
    (hconnected : ∀ j, j ≠ i → connected j = c.connected j)
    (hself : ∃ id start handled rest,
      Told c.server i s (c.arrived i + n) (connected i) id start handled rest) (j : SessionId) :
    ∃ id start handled rest, Told c.server j ((c.put i s n sent).dummies j)
      ((c.put i s n sent).arrived j) (connected j) id start handled rest := by
  by_cases hj : j = i
  · rw [hj, dummies_put_self, arrived_put_self]
    exact hself
  · rw [dummies_put_of_ne c s n sent hj, arrived_put_of_ne c s n sent hj, hconnected j hj]
    exact h j

/-- A dummy goes on. -/
theorem Followed.put (h : Followed c) {s : DummyClient.ClientSession} {n : Nat}
    {sent : List (List UInt8)} (hsent : ∀ data ∈ sent, Requested data)
    (hself : ∃ id start handled rest,
      Told c.server i s (c.arrived i + n) (c.connected i) id start handled rest) :
    Followed (c.put i s n sent) :=
  ⟨h.heard.put i s n hsent, told_put sent h.told (fun _ _ => rfl) hself⟩

theorem followed_step {e : Event} (h : Followed c) (hok : Fair c e)
    (hstep : c.step arith e = some c') : Followed c' := by
  cases step_moves hstep with
  | server e server hbrings hserver =>
      refine ⟨h.heard.server hok hbrings hserver, fun i => ?_⟩
      obtain ⟨id, start, handled, rest, htold⟩ := h.told i
      obtain ⟨more, hmore⟩ := htold.serve h.heard.orderly (h.heard.isOrderly hok) hserver
      exact ⟨id, start, handled, rest ++ more, hmore⟩
  | connect i hconn =>
      obtain ⟨id, start, handled, rest, htold⟩ := h.told i
      rw [hconn] at htold
      have hheard := h.heard.put i (c.dummies i).handleConnect 0
        (List.forall_mem_singleton.mpr (Request.requested_login (c.dummies i).mPlayerId))
      refine ⟨⟨hheard.orderly, hheard.hears⟩,
        told_put [(c.dummies i).loginRequest] h.told (fun j hj => if_neg hj)
          ⟨id, start, handled, rest, ?_⟩⟩
      show Told _ _ _ _ (if i = i then true else c.connected i) _ _ _ _
      rw [if_pos rfl]
      exact htold.connect
  | read i r s hreading henough hcompleted =>
      obtain ⟨id, start, handled, rest, htold⟩ := h.told i
      obtain ⟨s', now, rest', hcompleted', -, hread⟩ := htold.read hreading henough
      obtain rfl : s = s' := Option.some.inj (hcompleted.symm.trans hcompleted')
      exact h.put nofun ⟨id, start, handled ++ now, rest', hread⟩
  | readFails i len r s hreading _ hcompleted =>
      obtain ⟨id, start, handled, rest, htold⟩ := h.told i
      exact h.put nofun ⟨id, start, handled, rest, htold.fails hreading hcompleted⟩
  | timer i rand s sent hwaited =>
      obtain ⟨id, start, handled, rest, htold⟩ := h.told i
      refine h.put (fun data hdata => ?_) ⟨id, start, handled, rest, htold.timer hwaited⟩
      obtain rfl : sent = some data := Option.mem_toList.mp hdata
      refine ClientSession.requested_waited ?_ hwaited
      rw [htold.made.mPlayerId]
      exact htold.named

theorem isInvariant_followed (arith : FloatArith) : (system arith).IsInvariant Fair Followed where
  init _ h := followed_start h
  step _ _ _ _ h hok hstep := followed_step h hok hstep

-- ============================================================================
-- A crowd
-- ============================================================================

/-- Is it fair? -/
def isFair (c : Crowd) : Event → Bool
  | .server e =>
      Network.isOrderly ⟨c.server, fun _ => .new (fun _ => 0), fun _ => 0⟩ (.server e)
  | _ => true

theorem fair_of_isFair (c : Crowd) (e : Event) (h : isFair c e = true) : Fair c e := by
  cases e with
  | server e =>
      have horderly := Network.orderly_of_isOrderly _ (.server e) h
      exact ⟨horderly.noOverlap, horderly.wholeSends, horderly.lingerSet, horderly.takesUnlisted⟩
  | _ => trivial

/-- Two dummies, of which the table has the first, and every position zero. -/
def twoDummies : Crowd where
  server := .new 0 (fun _ => true)
    (fun pid => if pid = playerId 0 then some ⟨[65], 0, 0, 0, []⟩ else none)
  mTotalDummyCount := 2
  dummies i := .create (playerId (min i 1)) (fun _ => 0) 0 0
  connected _ := false
  requests _ := []
  received _ := 0
  arrived _ := 0

theorem start_twoDummies : Start twoDummies := by
  refine ⟨⟨⟨_, _, _, rfl⟩, rfl⟩, ⟨fun i => min i 1, fun i => ?_, fun i j hi hj heq => ?_,
    fun i => ⟨_, _, _, rfl⟩⟩, fun _ => rfl, fun _ => rfl, fun _ => rfl, fun _ => rfl⟩
  · show START_PLAYER_ID + min i 1 < 2 ^ 31
    rw [START_PLAYER_ID]
    omega
  · change i < 2 at hi
    change j < 2 at hj
    change min i 1 = min j 1 at heq
    omega

/-- `rand()` returns one, and then zeros. -/
def walks (n : Nat) : Nat := if n = 0 then 1 else 0

/-- Both connect; the first logs in, gets its result in two reads and walks. -/
def walkEvents : List Event :=
  [.accept 5, .produceAccepted, .takeAccepted (fun _ => 0) (fun _ => 0), .accept 6,
      .produceAccepted, .takeAccepted (fun _ => 0) (fun _ => 0), .flush].map Event.server ++
    [.connect 0, .connect 1] ++
    [.recvCompletion ⟨0, 0, BUFSIZE⟩ false [8, 0, 1, 0, 233, 3, 0, 0], .read, .produceRequest,
      .consumeRequest, .execute false, .produceResult, .read, .timer 100, .task, .period 100,
      .dispatch, .produceRequest, .dispatch, .consumeRequest, .execute false, .produceResult,
      .wake, .flush, .sendCompletion ⟨0, 46⟩ false 46].map Event.server ++
    [.read 0, .read 0, .timer 0 walks] ++
    [.recvCompletion ⟨0, 0, BUFSIZE⟩ false
        [16, 0, 21, 0, 233, 3, 0, 0, 0, 0, 72, 194, 0, 0, 240, 193],
      .read, .read, .wake, .flush, .sendCompletion ⟨0, 16⟩ false 16,
      .sendCompletion ⟨1, 16⟩ false 16].map Event.server ++
    [.read 0, .read 0, .read 1]

-- ============================================================================
-- What the dummies see
-- ============================================================================

/-- **The dummies follow.**  In every fair run of the crowd an `async_read`
    whose bytes have come never writes outside `mReadBuf` or copies more than a
    struct holds.  A dummy's callbacks have seen whole packets, each in
    somebody's name, which are the first bytes of what the server has handed
    over for it, and all that it has read when it waits for a header.  The
    chats and moves among them lie next to each other in what has been
    broadcast.  It is logged on if one of them was a login's result, and where
    the last of its own moves led. -/
theorem dummies_follow (arith : FloatArith) (c : Crowd) (h : (system arith).ReachableBy Fair c)
    (i : SessionId) :
    (∀ r, (c.dummies i).reading = some r → r.len ≤ (c.inFlight i).length →
        (c.step arith (.read i)).isSome) ∧
      ∃ handled, (c.dummies i).payloads = handled.map ClientSession.seen ∧
        (∀ p ∈ handled, p.mPlayerId ≠ -1) ∧
        stream handled <+: c.server.world.os.transmitted i ∧
        ((c.dummies i).reading = some headerRead → c.arrived i = (stream handled).length) ∧
        handled.filter OutPacket.isRelayed <:+: c.server.casts ∧
        ((c.dummies i).mLogon = true ↔ handled.filterMap OutPacket.login ≠ []) ∧
        ∀ pos, lastMove (c.dummies i).mPlayerId handled = some pos →
          ((c.dummies i).mPosX, (c.dummies i).mPosY) = pos := by
  obtain ⟨id, start, handled, rest, htold⟩ := ((isInvariant_followed arith).holds h).told i
  constructor
  · intro r hreading henough
    obtain ⟨s, now, rest', hcompleted, -, -⟩ := htold.read hreading henough
    have hnot : ¬ (c.inFlight i).length < r.len := Nat.not_lt.mpr henough
    simp only [step, hreading, Option.bind_some, hnot, if_false]
    rw [inFlight, hcompleted]
    rfl
  · obtain ⟨since, hserved⟩ := htold.served
    have hlogon := congrArg ClientSession.Own.mLogon htold.made.own
    have hpos := congrArg ClientSession.Own.pos htold.made.own
    refine ⟨handled, htold.made.payloads,
      fun p hp => hserved.named p (List.mem_append_left _ hp), htold.handed, ?_,
      hserved.heard_infix, ?_, ?_⟩
    · intro hreading
      cases htold.place with
      | idle hidle => cases hidle.symm.trans hreading
      | header _ harrived => exact harrived
      | payload p _ _ hread =>
          -- the payload is not read with the handler of the header
          cases congrArg AsyncRead.handler (Option.some.inj (hread.symm.trans hreading))
    · rw [show (c.dummies i).mLogon = _ from hlogon]
      exact decide_eq_true_iff
    · intro pos hlast
      rw [htold.made.mPlayerId] at hlast
      refine Eq.trans (show ((c.dummies i).mPosX, (c.dummies i).mPosY) = _ from hpos) ?_
      rw [hlast]
      rfl

theorem dummies_follow_walk :
    ∃ c, (system Game.fromZero).ReachableBy Fair c ∧
      ((c.dummies 0).mPosX, (c.dummies 0).mPosY) = (0xC2480000, 0xC1F00000) ∧
      ∃ handled : List OutPacket, handled.length = 2 ∧
        stream handled <+: c.server.world.os.transmitted 0 := by
  have hrun : ((system Game.fromZero).runIf isFair twoDummies walkEvents).map
      (fun c => ((c.dummies 0).mPosX, (c.dummies 0).mPosY, (c.dummies 0).payloads.length))
        = some (0xC2480000, 0xC1F00000, 2) := by
    decide +kernel
  obtain ⟨c, hc, hall⟩ := Option.map_eq_some_iff.mp hrun
  simp only [Prod.mk.injEq] at hall
  obtain ⟨hx, hy, hlen⟩ := hall
  have hreach := (System.ReachableBy.init (S := system Game.fromZero) start_twoDummies).runIf
    fair_of_isFair hc
  obtain ⟨-, handled, hpayloads, -, hhanded, -⟩ := dummies_follow Game.fromZero c hreach 0
  rw [hpayloads, List.length_map] at hlen
  exact ⟨c, hreach, by rw [hx, hy], handled, hlen, hhanded⟩

end Crowd
end EasyGameServer
