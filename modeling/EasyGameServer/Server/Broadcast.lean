/-
  EasyGameServer.Server.Broadcast

  Who gets a broadcast.  While two sessions are registered and connected, the
  same chats and moves get into their send buffers, in the same order, and they
  are the ones whose senders took their own copies.  A session that has no room
  for one is disconnected with its buffered bytes as they were.
-/

import EasyGameServer.Server.Moving
import EasyGameServer.World.Enqueue

namespace EasyGameServer

open Lib

-- ============================================================================
-- Packets in a send buffer
-- ============================================================================

/-- Cut bytes into packets by the sizes in their headers, `n` at most. -/
def cutPackets : Nat → List UInt8 → List (List UInt8)
  | 0, _ => []
  | n + 1, bs =>
      if bs = [] then []
      else
        let size := shortToSize (PacketHeader.ofBytes bs).mSize
        bs.take size :: cutPackets n (bs.drop size)

/-- The packets in a string of bytes. -/
def packetsIn (bs : List UInt8) : List (List UInt8) := cutPackets bs.length bs

/-- Is it a `ChatBroadcastResult` or a `MoveBroadcastResult`? -/
def isBroadcastResult (p : List UInt8) : Bool :=
  (PacketHeader.ofBytes p).mType = PacketTypes.pktScChat.value ∨
    (PacketHeader.ofBytes p).mType = PacketTypes.pktScMove.value

theorem packetsIn_toBytes (pkt : OutPacket) : packetsIn pkt.toBytes = [pkt.toBytes] := by
  have hsize : shortToSize (PacketHeader.ofBytes pkt.toBytes).mSize = pkt.toBytes.length := by
    rw [pkt.ofBytes_toBytes, pkt.length_toBytes]
    rfl
  have hne : pkt.toBytes ≠ [] := by
    intro hnil
    have hlen := pkt.length_toBytes
    rw [hnil] at hlen
    exact absurd hlen (Nat.ne_of_lt pkt.mSize_pos)
  have hnone : ∀ n, cutPackets n [] = [] := by
    intro n
    cases n with
    | zero => rfl
    | succ n => rfl
  obtain ⟨n, hn⟩ := Nat.exists_eq_succ_of_ne_zero (fun h => hne (List.length_eq_zero_iff.mp h))
  rw [packetsIn, hn, Nat.succ_eq_add_one, cutPackets, if_neg hne]
  simp only [hsize, List.take_length, List.drop_length, hnone]

theorem isBroadcastResult_toBytes (pkt : OutPacket) :
    isBroadcastResult pkt.toBytes = true ↔ ∀ p, pkt ≠ .loginResult p := by
  unfold isBroadcastResult
  rw [pkt.ofBytes_toBytes]
  have hlogin : ¬ (LoginResult.header.mType = PacketTypes.pktScChat.value ∨
      LoginResult.header.mType = PacketTypes.pktScMove.value) := by decide
  cases pkt with
  | loginResult p => exact ⟨fun h => absurd (of_decide_eq_true h) hlogin, fun h => absurd rfl (h p)⟩
  | chatBroadcastResult p => exact ⟨fun _ _ h => (by cases h), fun _ => rfl⟩
  | moveBroadcastResult p => exact ⟨fun _ _ h => (by cases h), fun _ => rfl⟩

namespace Server

variable {st st' : Server}

-- ============================================================================
-- What a step does to send buffers
-- ============================================================================

/-- The bytes in a session's send buffer. -/
def buffered (st : Server) (i : SessionId) : List UInt8 :=
  (st.world.sessions i).mSendBuffer.contents

inductive Enqueues (st st' : Server) : Event → Prop
  | same (a : Event) (hbuffers : World.Fixes ClientSession.mSendBuffer st.world st'.world)
      (hcasts : st'.world.broadcasts = st.world.broadcasts) : Enqueues st st' a
  /-- A session starts with nothing in its send buffer. -/
  | take (sendMem recvMem : Nat → UInt8)
      (hbuffers : ∀ i, (st'.world.sessions i).mSendBuffer =
        if i = st.world.next then .new BUFSIZE sendMem else (st.world.sessions i).mSendBuffer)
      (hcasts : st'.world.broadcasts = st.world.broadcasts) :
      Enqueues st st' (.takeAccepted sendMem recvMem)
  /-- Sent bytes are removed. -/
  | sent (post : SendPost) (dwError : Bool) (cbTransferred : Nat)
      (hbuffers : ∀ i, (st'.world.sessions i).mSendBuffer =
        if i = post.owner then (st.world.sessions i).mSendBuffer.remove cbTransferred
        else (st.world.sessions i).mSendBuffer)
      (hcasts : st'.world.broadcasts = st.world.broadcasts) :
      Enqueues st st' (.sendCompletion post dwError cbTransferred)
  /-- A login result gets into a buffer, or nothing does. -/
  | login (client : SessionId) (p : LoginResult) (bytes : List UInt8)
      (hbytes : bytes = [] ∨ bytes = (OutPacket.loginResult p).toBytes)
      (hvalid : st'.world.SendValid)
      (hbuffered : ∀ i, st'.buffered i = st.buffered i ++ if i = client then bytes else [])
      (hcasts : st'.world.broadcasts = st.world.broadcasts) : Enqueues st st' .dispatch
  /-- A chat or a move is relayed. -/
  | relayed (this : SessionId) (w : World) (pkt : OutPacket)
      (hpkt : ∀ p, pkt ≠ .loginResult p) (hprep : World.Prepares st.world w)
      (hthread : st.clientThread = .reading this)
      (hbody : World.onReadBody this st.world = .again st'.world)
      (hrelay : st'.world = w.relay this pkt) : Enqueues st st' .read

theorem step_enqueues {a : Event} (hv : st.world.SendValid) (h : st.step a = some st') :
    Enqueues st st' a := by
  have hblind := ClientSession.blind_mSendBuffer
  have hsame : ∀ {a : Event}, World.Fixes ClientSession.mSendBuffer st.world st'.world →
      st'.world.trace = st.world.trace → Enqueues st st' a := fun hfix htrace =>
    .same _ hfix (World.broadcasts_congr htrace)
  cases step_moves h with
  | takeAccepted sendMem recvMem sock =>
      rw [World.acceptClient_eq]
      have hfix := World.fixes_recvExit hblind
        (st.world.connectClient sock sendMem recvMem) st.world.next
      refine .take sendMem recvMem (fun i => ?_)
        (World.broadcasts_congr (World.steady_recvExit _ st.world.next).trace)
      have hi := hfix i
      rw [sessions_connectClient] at hi
      split
      next hnew =>
        rw [if_pos hnew] at hi
        exact hi
      next hold =>
        rw [if_neg hold] at hi
        exact hi
  | flush =>
      exact hsame (World.fixes_flushClientSend hblind _) (World.steady_flushClientSend _).trace
  | wake => exact hsame (.refl _) rfl
  | recvCompletion post dwError data =>
      exact hsame (World.fixes_recvCompletion hblind _ post dwError data)
        (World.steady_recvCompletion _ post dwError data).trace
  | readAgain this w _ hthread hbody =>
      rcases World.relayed_onReadBody hbody with ⟨hfix, hcasts⟩ | ⟨w₁, pkt, hpkt, hprep, hrelay⟩
      · exact .same _ hfix hcasts
      · exact .relayed this w₁ pkt hpkt hprep hthread hbody hrelay
  | readLeave this w _ _ hbody =>
      exact hsame ((World.fixes_onReadBody_leave hblind hbody).trans
          (World.fixes_recvExit hblind w this))
        ((World.steady_recvExit w this).trace.trans (World.steady_onReadBody_leave hbody).trace)
  | sendCompletion post dwError cbTransferred =>
      have htrace := (World.steady_sendCompletion st.world post dwError cbTransferred).trace
      rcases World.mSendBuffer_sendCompletion st.world post dwError cbTransferred with hfix | hsent
      · exact hsame hfix htrace
      · exact .sent post dwError cbTransferred hsent (World.broadcasts_congr htrace)
  | timer tick => exact hsame (.refl _) rfl
  | taskRun w _ _ htask =>
      exact hsame (World.fixes_doTask hblind htask) (World.steady_doTask htask).trace
  | taskNone => exact hsame (.refl _) rfl
  | period currTick =>
      exact hsame (World.fixes_onPeriodWork _ currTick) (World.steady_onPeriodWork _ currTick).trace
  | dispatchNone => exact hsame (.refl _) rfl
  | dispatchJob t q w _ _ hq hw =>
      rcases World.dispatchDatabaseJobResult_cases hw with
        rfl | ⟨client, login, hsuccess, hdata, hreg, -, -, heq⟩
      · exact hsame (.refl _) rfl
      · rw [heq]
        obtain ⟨hvalid, p, bytes, hbytes, hbuffered⟩ := World.sendBuffer_loginDone hv client
          login.mPlayerId (doubleToFloat login.mPosX) (doubleToFloat login.mPosY) login.mPlayerName
        refine .login client p bytes hbytes hvalid hbuffered ?_
        refine (World.broadcasts_append (World.loggedIn_loginDone ..).trace).trans ?_
        exact List.append_nil _
  | accept sock => exact hsame (.of_eq rfl) rfl
  | produceAccepted => exact hsame (.refl _) rfl
  | produceRequest => exact hsame (.of_eq rfl) rfl
  | consumeRequest => exact hsame (.refl _) rfl
  | execute => exact hsame (.refl _) rfl
  | produceResult => exact hsame (.refl _) rfl

theorem isInvariant_sendValid :
    system.IsInvariant System.always (fun st => st.world.SendValid) where
  init := by
    rintro _ ⟨tick, answers, players, rfl⟩ i
    exact CircularBuffer.valid_new BUFSIZE _
  step := by
    intro st a st' _ hv _ hstep
    cases step_enqueues hv hstep with
    | same _ hbuffers => exact hv.fixed hbuffers
    | take sendMem recvMem hbuffers =>
        intro i
        rw [hbuffers i]
        split
        · exact CircularBuffer.valid_new BUFSIZE sendMem
        · exact hv i
    | sent post dwError cbTransferred hbuffers =>
        intro i
        rw [hbuffers i]
        split
        · exact (CircularBuffer.remove_spec (hv i) cbTransferred).1
        · exact hv i
    | login _ _ _ _ hvalid => exact hvalid
    | relayed this w pkt _ hprep _ _ hrelay =>
        rw [hrelay]
        exact (hv.fixed hprep.mSendBuffer).relay this pkt

theorem sendValid_of_reachable (h : system.Reachable st) : st.world.SendValid :=
  isInvariant_sendValid.holds h

-- ============================================================================
-- What is put into send buffers
-- ============================================================================

/-- What a step appends to a session's send buffer; `SendCompletion` appends
    nothing. -/
def appended (i : SessionId) (t : System.Transition Server Event) : List UInt8 :=
  match t.label with
  | .sendCompletion _ _ _ => []
  | _ => (t.after.buffered i).drop (t.before.buffered i).length

/-- The chats and moves put into a session's send buffer. -/
def received (i : SessionId) (ts : List (System.Transition Server Event)) : List (List UInt8) :=
  ts.flatMap (fun t => (packetsIn (appended i t)).filter isBroadcastResult)

/-- Registered and connected. -/
def Present (i : SessionId) (st : Server) : Prop :=
  st.world.IsListed i ∧ (st.world.sessions i).mConnected = true

/-- In the loop of `OnRead`, `Disconnect` can set the linger option. -/
def LingerSet (st : Server) : Event → Prop
  | .read => ∀ this w, st.clientThread = .reading this →
      World.onReadBody this st.world = .again w → st.world.os.Granted w.os
  | _ => True

/-- A relay of the server, seen from the state before the packet was read. -/
structure Relaying (st st' : Server) (this : SessionId) (pkt : OutPacket) : Prop where
  offered : ∀ i, i = this ∨ ((st.world.sessions this).accepts pkt = true ∧ st.world.IsListed i) →
    ClientSession.Offered pkt (st.world.sessions i) (st'.world.sessions i)
  others : ∀ i, ¬ (i = this ∨ ((st.world.sessions this).accepts pkt = true ∧ st.world.IsListed i)) →
    st'.buffered i = st.buffered i
  broadcasts : st'.world.broadcasts = st.world.broadcasts ++
    if (st.world.sessions this).accepts pkt then [(this, pkt)] else []

theorem relaying_of_relayed {this : SessionId} {w : World} {pkt : OutPacket}
    (hr : system.Reachable st) (hlinger : LingerSet st .read) (hprep : World.Prepares st.world w)
    (hthread : st.clientThread = .reading this)
    (hbody : World.onReadBody this st.world = .again st'.world)
    (hrelay : st'.world = w.relay this pkt) : Relaying st st' this pkt := by
  have hgranted := hlinger this st'.world hthread hbody
  rw [← hprep.os, hrelay] at hgranted
  obtain ⟨hoffered, hothers, hcasts⟩ := World.relays_relay
    (hprep.keyed (sound_of_reachable hr).keyed)
    ((sendValid_of_reachable hr).fixed hprep.mSendBuffer) hgranted
  have hlisted : ∀ i, w.IsListed i ↔ st.world.IsListed i := by
    intro i
    unfold World.IsListed
    rw [hprep.mClientList]
  simp only [hprep.accepts, hlisted] at hoffered hothers hcasts
  rw [hprep.broadcasts] at hcasts
  rw [← hrelay] at hoffered hothers hcasts
  refine ⟨fun i hi => ?_, fun i hi => ?_, hcasts⟩
  · exact World.offered_congr (hoffered i hi) (hprep.mConnected i) (hprep.mSendBuffer i)
  · rw [buffered, buffered, hothers i hi, hprep.mSendBuffer i]

/-- What is appended has been appended. -/
theorem appended_of_append {i : SessionId} {a : Event} {bytes : List UInt8}
    (h : st'.buffered i = st.buffered i ++ bytes)
    (ha : ∀ post dwError cbTransferred, a ≠ .sendCompletion post dwError cbTransferred) :
    appended i ⟨st, a, st'⟩ = bytes := by
  have hdrop : (st'.buffered i).drop (st.buffered i).length = bytes := by
    rw [h, List.drop_left]
  unfold appended
  split
  next post dwError cbTransferred heq => exact absurd heq (ha post dwError cbTransferred)
  next => exact hdrop

/-- Nothing is appended to a buffer that is left alone. -/
theorem appended_of_eq {i : SessionId} {a : Event} (h : st'.buffered i = st.buffered i) :
    appended i ⟨st, a, st'⟩ = [] := by
  unfold appended
  split
  · rfl
  · exact List.drop_of_length_le (Nat.le_of_eq (congrArg List.length h))

theorem received_singleton (i : SessionId) (t : System.Transition Server Event) :
    received i [t] = (packetsIn (appended i t)).filter isBroadcastResult :=
  List.append_nil _

theorem filter_packetsIn_nil : (packetsIn []).filter isBroadcastResult = [] := rfl

/-- A login result is neither a chat nor a move. -/
theorem filter_packetsIn_loginResult (p : LoginResult) :
    (packetsIn (OutPacket.loginResult p).toBytes).filter isBroadcastResult = [] := by
  have hnot : ¬ isBroadcastResult (OutPacket.loginResult p).toBytes = true :=
    fun h => (isBroadcastResult_toBytes _).mp h p rfl
  rw [packetsIn_toBytes, List.filter_cons_of_neg hnot, List.filter_nil]

/-- What is relayed is. -/
theorem filter_packetsIn_relayed {pkt : OutPacket} (h : ∀ p, pkt ≠ .loginResult p) :
    (packetsIn pkt.toBytes).filter isBroadcastResult = [pkt.toBytes] := by
  rw [packetsIn_toBytes, List.filter_cons_of_pos ((isBroadcastResult_toBytes pkt).mpr h),
    List.filter_nil]

/-- A step without a broadcast, after which no chat or move has been appended. -/
theorem received_of_quiet {i : SessionId} {a : Event} {bytes : List UInt8}
    (happ : appended i ⟨st, a, st'⟩ = bytes)
    (hno : (packetsIn bytes).filter isBroadcastResult = [])
    (hcasts : st'.world.broadcasts = st.world.broadcasts) :
    ∃ sent, st'.world.broadcasts = st.world.broadcasts ++ sent ∧
      received i [⟨st, a, st'⟩] = sent.map (fun c => c.2.toBytes) := by
  refine ⟨[], by rw [hcasts, List.append_nil], ?_⟩
  rw [received_singleton, happ, hno]
  rfl

/-- One step: the chat or move that is broadcast, if there is one, is put into
    the send buffer of everybody who stays. -/
theorem received_step {a : Event} {i : SessionId} (hr : system.Reachable st)
    (hstep : st.step a = some st') (hlinger : LingerSet st a) (hi : Present i st)
    (hi' : Present i st') :
    ∃ sent, st'.world.broadcasts = st.world.broadcasts ++ sent ∧
      received i [⟨st, a, st'⟩] = sent.map (fun c => c.2.toBytes) := by
  cases step_enqueues (sendValid_of_reachable hr) hstep with
  | same _ hbuffers hcasts =>
      have hsame := congrArg CircularBuffer.contents (hbuffers i)
      exact received_of_quiet (appended_of_eq hsame) filter_packetsIn_nil hcasts
  | take sendMem recvMem hbuffers hcasts =>
      have hold : i ≠ st.world.next := by
        obtain ⟨k, hk⟩ := hi.1
        exact Nat.ne_of_lt ((sound_of_reachable hr).registered k i hk).1
      have hbuffer := hbuffers i
      rw [if_neg hold] at hbuffer
      have hsame := congrArg CircularBuffer.contents hbuffer
      exact received_of_quiet (appended_of_eq hsame) filter_packetsIn_nil hcasts
  | sent post dwError cbTransferred hbuffers hcasts =>
      exact received_of_quiet rfl filter_packetsIn_nil hcasts
  | login client p bytes hbytes _ hbuffered hcasts =>
      refine received_of_quiet (appended_of_append (hbuffered i) nofun) ?_ hcasts
      split
      · rcases hbytes with rfl | rfl
        · exact filter_packetsIn_nil
        · exact filter_packetsIn_loginResult p
      · exact filter_packetsIn_nil
  | relayed this w pkt hpkt hprep hthread hbody hrelay =>
      have hrel := relaying_of_relayed hr hlinger hprep hthread hbody hrelay
      refine ⟨_, hrel.broadcasts, ?_⟩
      rw [received_singleton]
      cases haccepts : (st.world.sessions this).accepts pkt with
      | true =>
          have hoffered := hrel.offered i (Or.inr ⟨haccepts, hi.1⟩)
          have htaken : (st.world.sessions i).accepts pkt = true :=
            hoffered.mConnected.symm.trans hi'.2
          have hcontents := hoffered.contents
          rw [htaken, if_pos rfl] at hcontents
          rw [appended_of_append (a := .read) hcontents nofun, filter_packetsIn_relayed hpkt]
          rfl
      | false =>
          have hne : i ≠ this := by
            rintro rfl
            have hdisc := (hrel.offered i (Or.inl rfl)).mConnected
            rw [haccepts, hi'.2] at hdisc
            cases hdisc
          have hbuffer := hrel.others i (fun h => by simp [haccepts, hne] at h)
          rw [appended_of_eq hbuffer]
          rfl

theorem received_append (i : SessionId) (ts ts' : List (System.Transition Server Event)) :
    received i (ts ++ ts') = received i ts ++ received i ts' := List.flatMap_append

/-- A whole run. -/
theorem received_path {st₀ : Server} {ts : List (System.Transition Server Event)} {i : SessionId}
    (h₀ : system.Reachable st₀) (hpath : system.Path st₀ ts st)
    (hlinger : ∀ t ∈ ts, LingerSet t.before t.label)
    (hi : ∀ t ∈ ts, Present i t.before ∧ Present i t.after) :
    ∃ sent, st.world.broadcasts = st₀.world.broadcasts ++ sent ∧
      received i ts = sent.map (fun c => c.2.toBytes) := by
  induction hpath with
  | nil => exact ⟨[], (List.append_nil _).symm, rfl⟩
  | @snoc t t' ts a hpath hstep ih =>
      obtain ⟨sent, hcasts, hreceived⟩ := ih
        (fun t ht => hlinger t (List.mem_append_left _ ht))
        (fun t ht => hi t (List.mem_append_left _ ht))
      have hlast : (⟨t, a, t'⟩ : System.Transition Server Event) ∈ ts ++ [⟨t, a, t'⟩] :=
        List.mem_append_right _ (List.mem_singleton.mpr rfl)
      obtain ⟨more, hcasts', hreceived'⟩ := received_step (hpath.reachable h₀) hstep
        (hlinger _ hlast) (hi _ hlast).1 (hi _ hlast).2
      refine ⟨sent ++ more, ?_, ?_⟩
      · rw [hcasts', hcasts, List.append_assoc]
      · rw [received_append, hreceived, hreceived', List.map_append]

/-- Whoever is registered when a packet is broadcast is offered it. -/
theorem offered_of_broadcast {a : Event} {sender : SessionId} {pkt : OutPacket}
    (hr : system.Reachable st) (hstep : st.step a = some st') (hlinger : LingerSet st a)
    (hcast : st'.world.broadcasts = st.world.broadcasts ++ [(sender, pkt)]) {k : SessionId}
    (hk : st.world.IsListed k) :
    ClientSession.Offered pkt (st.world.sessions k) (st'.world.sessions k) := by
  have hgrows : st'.world.broadcasts ≠ st.world.broadcasts := by
    rw [hcast]
    exact fun heq => List.cons_ne_nil _ _ (List.append_right_eq_self.mp heq)
  cases step_enqueues (sendValid_of_reachable hr) hstep with
  | same _ _ hcasts => exact absurd hcasts hgrows
  | take _ _ _ hcasts => exact absurd hcasts hgrows
  | sent _ _ _ _ hcasts => exact absurd hcasts hgrows
  | login _ _ _ _ _ _ hcasts => exact absurd hcasts hgrows
  | relayed this w pkt' hpkt hprep hthread hbody hrelay =>
      have hrel := relaying_of_relayed hr hlinger hprep hthread hbody hrelay
      have hcasts := hrel.broadcasts
      rw [hcast, List.append_cancel_left_eq] at hcasts
      split at hcasts
      next haccepts =>
        cases hcasts
        exact hrel.offered k (Or.inr ⟨haccepts, hk⟩)
      next => cases hcasts

/-- Packets get into a send buffer whole, in an iteration of `OnRead`, and
    whoever gets one stays connected. -/
theorem whole_or_nothing (hr : system.Reachable st) (hstep : st.step .read = some st')
    (hlinger : LingerSet st .read) (k : SessionId) :
    st'.buffered k = st.buffered k ∨ ((st'.world.sessions k).mConnected = true ∧
      ∃ pkt : OutPacket, st'.buffered k = st.buffered k ++ pkt.toBytes) := by
  cases step_enqueues (sendValid_of_reachable hr) hstep with
  | same _ hbuffers => exact Or.inl (congrArg CircularBuffer.contents (hbuffers k))
  | relayed this w pkt hpkt hprep hthread hbody hrelay =>
      have hrel := relaying_of_relayed hr hlinger hprep hthread hbody hrelay
      by_cases hk : k = this ∨ ((st.world.sessions this).accepts pkt = true ∧ st.world.IsListed k)
      · have hoffered := hrel.offered k hk
        cases htaken : (st.world.sessions k).accepts pkt with
        | true =>
            have hcontents := hoffered.contents
            rw [htaken, if_pos rfl] at hcontents
            exact Or.inr ⟨hoffered.mConnected.trans htaken, pkt, hcontents⟩
        | false =>
            have hcontents := hoffered.contents
            rw [htaken, if_neg Bool.false_ne_true, List.append_nil] at hcontents
            exact Or.inl hcontents
      · exact Or.inl (hrel.others k hk)

/-- **One order.**  In every run in which `Disconnect` can set the linger
    option, the chats and moves put into the send buffers of two sessions while
    they are registered and connected are the same, in the same order: those
    broadcast in the meantime, each once.  At every broadcast each registered
    session, the sender too, takes the packet whole and stays connected, or has
    no room and is disconnected with its buffered bytes as they were. -/
theorem broadcast_order (st₀ st : Server) (ts : List (System.Transition Server Event))
    (i j : SessionId) (h₀ : system.Reachable st₀) (hpath : system.Path st₀ ts st)
    (hlinger : ∀ t ∈ ts, LingerSet t.before t.label)
    (hi : ∀ t ∈ ts, Present i t.before ∧ Present i t.after)
    (hj : ∀ t ∈ ts, Present j t.before ∧ Present j t.after) :
    (∃ sent, st.world.broadcasts = st₀.world.broadcasts ++ sent ∧
      received i ts = sent.map (fun c => c.2.toBytes) ∧
      received j ts = sent.map (fun c => c.2.toBytes)) ∧
    (∀ t ∈ ts, ∀ sender pkt,
      t.after.world.broadcasts = t.before.world.broadcasts ++ [(sender, pkt)] →
      ∀ k, t.before.world.IsListed k →
        ClientSession.Offered pkt (t.before.world.sessions k) (t.after.world.sessions k)) ∧
    ∀ t ∈ ts, t.label = .read → ∀ k,
      t.after.buffered k = t.before.buffered k ∨ ((t.after.world.sessions k).mConnected = true ∧
        ∃ pkt : OutPacket, t.after.buffered k = t.before.buffered k ++ pkt.toBytes) := by
  refine ⟨?_, fun t ht sender pkt hcast k hk => ?_, fun t ht hread k => ?_⟩
  · obtain ⟨sent, hcasts, hreceived⟩ := received_path h₀ hpath hlinger hi
    obtain ⟨sent', hcasts', hreceived'⟩ := received_path h₀ hpath hlinger hj
    have hsame : sent' = sent := List.append_cancel_left (hcasts'.symm.trans hcasts)
    rw [hsame] at hreceived'
    exact ⟨sent, hcasts, hreceived, hreceived'⟩
  · obtain ⟨hr, hstep⟩ := hpath.mem h₀ ht
    exact offered_of_broadcast hr hstep (hlinger t ht) hcast hk
  · obtain ⟨hr, hstep⟩ := hpath.mem h₀ ht
    have hlinger' := hlinger t ht
    rw [hread] at hstep hlinger'
    exact whole_or_nothing hr hstep hlinger' k

/-- Two clients, one of them logged in, which moves. -/
theorem broadcast_order_move :
    ∃ st₀ st ts, system.Reachable st₀ ∧ system.Path st₀ ts st ∧
      received 0 ts = [(OutPacket.moveBroadcastResult ⟨7, 0x3F800000, 0x40000000⟩).toBytes] ∧
      received 1 ts = received 0 ts := by
  let both : Server → Bool := fun st =>
    decide (st.world.mClientList[5]? = some 0) && (st.world.sessions 0).mConnected &&
      decide (st.world.mClientList[6]? = some 1) && (st.world.sessions 1).mConnected
  have hrun : ((system.run (new 0 (fun _ => true) onePlayer) (loginEvents ++
      [.wake, .accept 6, .produceAccepted, .takeAccepted (fun _ => 0) (fun _ => 0), .flush,
        .recvCompletion ⟨0, 0, BUFSIZE⟩ false moveBytes])).bind
      (fun st₀ => (st₀.step .read).map (fun st => (st₀, st)))).map
      (fun p => (both p.1, both p.2, decide (p.1.world.broadcasts = []),
        decide (p.2.world.broadcasts = [(0, .moveBroadcastResult ⟨7, 0x3F800000, 0x40000000⟩)]),
        decide (p.2.world.os.asked ≤ p.1.world.os.asked)))
      = some (true, true, true, true, true) := by
    decide +kernel
  obtain ⟨⟨st₀, st⟩, hst, hall⟩ := Option.map_eq_some_iff.mp hrun
  obtain ⟨st₀', hst₀, hpair⟩ := Option.bind_eq_some_iff.mp hst
  obtain ⟨st', hstep, heq⟩ := Option.map_eq_some_iff.mp hpair
  cases heq
  simp only [Prod.mk.injEq, decide_eq_true_eq] at hall
  obtain ⟨hboth₀, hboth, hcasts₀, hcasts, hasked⟩ := hall
  have hpresent : ∀ st, both st = true → Present 0 st ∧ Present 1 st := by
    intro st hb
    simp only [both, Bool.and_eq_true, decide_eq_true_eq] at hb
    obtain ⟨⟨⟨h0, hc0⟩, h1⟩, hc1⟩ := hb
    exact ⟨⟨⟨5, h0⟩, hc0⟩, ⟨6, h1⟩, hc1⟩
  have hreach : system.Reachable st₀ := .run (.init ⟨_, _, _, rfl⟩) hst₀
  have hpath : system.Path st₀ [⟨st₀, .read, st⟩] st := .snoc .nil hstep
  have hlinger : ∀ t ∈ [(⟨st₀, .read, st⟩ : System.Transition Server Event)],
      LingerSet t.before t.label := by
    intro t ht
    rw [List.mem_singleton.mp ht]
    intro this w hthread hbody n hle hlt
    -- no call is made
    cases step_moves hstep with
    | readAgain this' w' _ hthread' hbody' =>
        cases hthread.symm.trans hthread'
        cases hbody.symm.trans hbody'
        exact (Nat.lt_irrefl n (Nat.lt_of_lt_of_le hlt (Nat.le_trans hasked hle))).elim
    | readLeave this' w' _ hthread' hbody' =>
        cases hthread.symm.trans hthread'
        cases hbody.symm.trans hbody'
  have hthere : ∀ t ∈ [(⟨st₀, .read, st⟩ : System.Transition Server Event)],
      (Present 0 t.before ∧ Present 0 t.after) ∧ Present 1 t.before ∧ Present 1 t.after := by
    intro t ht
    rw [List.mem_singleton.mp ht]
    obtain ⟨h0, h1⟩ := hpresent st₀ hboth₀
    obtain ⟨h0', h1'⟩ := hpresent st hboth
    exact ⟨⟨h0, h0'⟩, h1, h1'⟩
  obtain ⟨⟨sent, hsent, hreceived, hreceived'⟩, -⟩ := broadcast_order st₀ st _ 0 1 hreach hpath
    hlinger (fun t ht => (hthere t ht).1) (fun t ht => (hthere t ht).2)
  rw [hcasts₀, hcasts, List.nil_append] at hsent
  rw [← hsent] at hreceived hreceived'
  exact ⟨st₀, st, _, hreach, hpath, hreceived, hreceived'.trans hreceived.symm⟩

end Server
end EasyGameServer
