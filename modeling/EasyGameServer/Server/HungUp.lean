/-
  EasyGameServer.Server.HungUp

  A session hung up in the middle of what it has sent.  A player chats until
  its own send buffer is full, all in one receive, and something else comes
  last: `Broadcast` finds no room for one of the chats, the handler disconnects,
  and the loop of `OnRead` goes on.  A login request behind the chats is heeded;
  the chats, and a packet that is not all there, are not.
-/

import EasyGameServer.Server.Broadcast
import EasyGameServer.Server.Chat

namespace EasyGameServer

open Lib

namespace World

variable {pid : Int32}

-- ============================================================================
-- Walking over complete packets
-- ============================================================================

theorem ReadsOn.trans {bs bs' bs'' : List UInt8} (h : ReadsOn pid bs bs')
    (h' : ReadsOn pid bs' bs'') : ReadsOn pid bs bs'' := by
  induction h' with
  | refl => exact h
  | next _ hd hr hs hc ih => exact ih.next hd hr hs hc

theorem lands_of_conforming {p rest : List UInt8} {r : Registered} {x y : CFloat}
    (hp : Conforming p) (hr : registered? (PacketHeader.ofBytes p).mType = some r)
    (ht : TakesEffect pid x y r p) : Lands pid x y (p ++ rest) r := by
  obtain ⟨r', hr', hlen, hsize⟩ := id hp
  obtain rfl : r' = r := Option.some.inj (hr'.symm.trans hr)
  have hle : p.length ≤ (p ++ rest).length := by
    rw [List.length_append]
    exact Nat.le_add_right _ _
  have hd := dispatched_of_conforming hp List.prefix_rfl hle
  have hhead := r'.sizeofPacketHeader_le_size
  have hof : PacketHeader.ofBytes (p ++ rest) = PacketHeader.ofBytes p :=
    ofBytes_of_prefix List.prefix_rfl (by omega) hd.header
  refine ⟨hd, by rw [hof]; exact hr, by omega, ?_⟩
  rw [List.take_left' hlen]
  exact ht

theorem readsOn_conforming {p rest : List UInt8} {r : Registered} (hp : Conforming p)
    (hr : registered? (PacketHeader.ofBytes p).mType = some r) (hc : ¬ r.Crashes pid p) :
    ReadsOn pid (p ++ rest) rest := by
  obtain ⟨r', hr', hlen, hsize⟩ := id hp
  obtain rfl : r' = r := Option.some.inj (hr'.symm.trans hr)
  have hle : p.length ≤ (p ++ rest).length := by
    rw [List.length_append]
    exact Nat.le_add_right _ _
  have hd := dispatched_of_conforming hp List.prefix_rfl hle
  have hhead := r'.sizeofPacketHeader_le_size
  have hof : PacketHeader.ofBytes (p ++ rest) = PacketHeader.ofBytes p :=
    ofBytes_of_prefix List.prefix_rfl (by omega) hd.header
  have htake : (p ++ rest).take r'.size = p := List.take_left' hlen
  have hstep : ReadsOn pid (p ++ rest) ((p ++ rest).drop r'.size) :=
    ReadsOn.refl.next hd (by rw [hof]; exact hr) (by omega) (by rw [htake]; exact hc)
  rwa [List.drop_left' hlen] at hstep

/-- The loop of `OnRead` starts with what a completed receive has committed. -/
theorem exists_commitRecv {w : World} (post : RecvPost) {data : List UInt8}
    (hconn : (w.sessions post.owner).mConnected = true) (hne : data ≠ []) :
    ∃ w₀ : World, (w.recvCompletion post false data).2 = w₀.commitRecv post.owner data.length := by
  rcases w.recvCompletion_cases post false data with ⟨hdisc, -⟩ | ⟨-, herr, -⟩ | ⟨-, -, heq⟩
  · cases hconn.symm.trans hdisc
  · rcases herr with herr | herr
    · cases herr
    · exact absurd herr hne
  · refine ⟨w.put post.owner (((w.sessions post.owner).arrive post.buf data).decRefCount,
      { w.os with recvs := w.os.recvs.erase post }), ?_⟩
    rw [heq, commitRecv, modify, put_put, sessions_put_self]
    rfl

end World

namespace Server

variable {st st' : Server}

-- ============================================================================
-- A player chats
-- ============================================================================

/-- A CHAT of player 7. -/
def chatPacket : List UInt8 := [8, 1, 11, 0, 7, 0, 0, 0, 65] ++ List.replicate 255 0

theorem length_chatPacket : chatPacket.length = 264 := by decide +kernel

theorem conforming_chatPacket : World.Conforming chatPacket :=
  ⟨.chat, by decide, length_chatPacket, by decide⟩

theorem chat_not_crashes (pid : Int32) : ¬ World.Registered.Crashes .chat pid chatPacket :=
  fun h => h.2.2 (by decide +kernel)

/-- `n` chats, then something else. -/
def chats (last : List UInt8) (n : Nat) : List UInt8 :=
  (List.replicate n chatPacket).flatten ++ last

variable {last : List UInt8}

theorem chats_succ (n : Nat) : chats last (n + 1) = chatPacket ++ chats last n := by
  rw [chats, chats, List.replicate_succ, List.flatten_cons, List.append_assoc]

theorem readsOn_chats (pid : Int32) (n : Nat) : World.ReadsOn pid (chats last n) last := by
  induction n with
  | zero => exact .refl
  | succ n ih =>
      rw [chats_succ]
      exact (World.readsOn_conforming conforming_chatPacket (r := .chat) (by decide)
        (chat_not_crashes pid)).trans ih

/-- The packet at the front is the next chat. -/
theorem chat_of_dispatched {n : Nat} {r : World.Registered}
    (hd : World.Dispatched (chats last (n + 1)))
    (hr : World.registered? (PacketHeader.ofBytes (chats last (n + 1))).mType = some r) :
    r = .chat := by
  rw [chats_succ] at hd hr
  have hof : PacketHeader.ofBytes (chatPacket ++ chats last n) = PacketHeader.ofBytes chatPacket :=
    World.ofBytes_of_prefix List.prefix_rfl (by rw [length_chatPacket]; decide) hd.header
  rw [hof] at hr
  exact Option.some.inj (hr.symm.trans (by decide))

/-- When nothing is read of what comes last, the walk stays among the chats. -/
theorem exists_chats_of_readsOn {pid : Int32} {n : Nat} {bs : List UInt8}
    (hlast : ∀ r, World.registered? (PacketHeader.ofBytes last).mType = some r →
      last.length < r.size) (h : World.ReadsOn pid (chats last n) bs) :
    ∃ k, bs = chats last k := by
  induction h with
  | refl => exact ⟨n, rfl⟩
  | next _ hd hr hs _ ih =>
      obtain ⟨k, rfl⟩ := ih
      cases k with
      | zero => exact absurd hs (Nat.not_le.mpr (hlast _ hr))
      | succ k =>
          cases chat_of_dispatched hd hr
          refine ⟨k, ?_⟩
          rw [chats_succ]
          exact List.drop_left' length_chatPacket

/-- The client thread reads what the first session has sent: `n` more chats,
    and what comes last. -/
structure Chatting (st : Server) (last : List UInt8) (n : Nat) : Prop where
  reachable : system.Reachable st
  thread : st.clientThread = .reading 0
  outbox : st.world.outbox = []
  valid : (st.world.recv 0).Valid
  contents : (st.world.recv 0).contents = chats last n

/-- The first session is player 7, nobody else is there, and the next call of
    the system will succeed. -/
structure Alone (w : World) : Prop where
  mPlayerId : (w.sessions 0).mPlayerId = 7
  mClientList : w.mClientList.toList = [(5, 0)]
  answers : w.os.answers w.os.asked = true

theorem Alone.receive {w : World} (h : Alone w) (hconn : (w.sessions 0).mConnected = true)
    {data : List UInt8} (hne : data ≠ []) :
    Alone (w.recvCompletion ⟨0, 0, BUFSIZE⟩ false data).2 := by
  rcases World.recvCompletion_cases w ⟨0, 0, BUFSIZE⟩ false data with
    ⟨hdisc, -⟩ | ⟨-, herr, -⟩ | ⟨-, -, heq⟩
  · cases hconn.symm.trans hdisc
  · rcases herr with herr | herr
    · cases herr
    · exact absurd herr hne
  · rw [heq]
    exact ⟨h.mPlayerId, h.mClientList, h.answers⟩

/-- A chat is read: the player takes its own copy, or is hung up. -/
theorem Chatting.read {n : Nat} (h : Chatting st last (n + 1)) (halone : Alone st.world) :
    ∃ st', Chatting st' last n ∧ World.onReadBody 0 st.world = .again st'.world ∧
      ((st'.world.sessions 0).mConnected = false ∨
      (Alone st'.world ∧ (st'.buffered 0).length = (st.buffered 0).length + 294 ∧
        World.sendCapacity (st'.world.sessions 0) = World.sendCapacity (st.world.sessions 0))) := by
  have hc := h.contents
  rw [chats_succ] at hc
  obtain ⟨w', after, hbody, hhandled, hv', hc'⟩ := World.onReadBody_front (r := .chat) h.valid
    conforming_chatPacket (by decide) hc (chat_not_crashes _)
  have hstep : st.step .read = some { st with world := w' } := by
    simp only [step, Event.ofClient, if_true, h.outbox, List.isEmpty_nil, clientStep, h.thread,
      hbody]
  cases hhandled with
  | login hr => cases hr
  | refused _ hpid =>
      have hclaimed : World.claimedPlayerId chatPacket = 7 := by decide
      exact absurd (hclaimed.trans halone.mPlayerId.symm) hpid
  | move hr => cases hr
  | chat _ _ pkt =>
      generalize hw₀ : st.world.consumed 0 World.Registered.chat.type chatPacket after = w₀
        at hstep hbody
      have hprep : World.Prepares st.world w₀ := hw₀ ▸ World.prepares_consumed ..
      have hself : w₀.sessions 0 = { st.world.sessions 0 with mRecvBuffer := after } :=
        hw₀ ▸ World.sessions_consumed_self ..
      have houtbox : w₀.outbox = [] := hw₀ ▸ h.outbox
      have hv₀ := (sendValid_of_reachable h.reachable).fixed hprep.mSendBuffer
      have hcalm := World.calm_relay w₀ 0 (.chatBroadcastResult pkt)
      have hkeeps := hcalm.sessions 0
      rw [hself] at hkeeps
      have hlist : w₀.mClientList.toList = [(5, 0)] := by
        rw [hprep.mClientList]
        exact halone.mClientList
      have hask : w₀.os.answers w₀.os.asked = true := by
        rw [hprep.os]
        exact halone.answers
      have hchatting :
          Chatting { st with world := w₀.relay 0 (.chatBroadcastResult pkt) } last n :=
        ⟨reachable_step h.reachable hstep, h.thread, hcalm.outbox.trans houtbox,
          (congrArg CircularBuffer.Valid hkeeps.mRecvBuffer).mpr hv',
          (congrArg CircularBuffer.contents hkeeps.mRecvBuffer).trans hc'⟩
      refine ⟨_, hchatting, hbody, ?_⟩
      cases haccepts : (w₀.sessions 0).accepts (.chatBroadcastResult pkt) with
      | false => exact Or.inl (World.mConnected_relay_of_refused hv₀ haccepts hask)
      | true =>
          have hos := World.os_relay_alone hv₀ haccepts hlist
          have hcontents := World.contents_relay_of_accepted hv₀ haccepts
          have hfix := World.fixes_sendCapacity_relay hv₀ 0 (.chatBroadcastResult pkt) 0
          refine Or.inr ⟨⟨hkeeps.mPlayerId.trans halone.mPlayerId, ?_, ?_⟩, ?_, ?_⟩
          · exact (congrArg Std.TreeMap.toList hcalm.mClientList).trans hlist
          · show (w₀.relay 0 _).os.answers (w₀.relay 0 _).os.asked = true
            rw [hos]
            exact hask
          · have hlen := congrArg List.length hcontents
            rw [List.length_append, OutPacket.length_toBytes, hprep.mSendBuffer 0] at hlen
            exact hlen
          · rw [hself] at hfix
            exact hfix

/-- With more to say than fits, it is hung up before what comes last. -/
theorem Chatting.hungUp {n : Nat} {w₀ : World} (h : Chatting st last n) (halone : Alone st.world)
    (hhead : Heads (World.onReadBody 0) w₀ st.world)
    (hmany : World.sendCapacity (st.world.sessions 0) < (st.buffered 0).length + 294 * n) :
    ∃ st' k, Chatting st' last k ∧ Heads (World.onReadBody 0) w₀ st'.world ∧
      (st'.world.sessions 0).mConnected = false := by
  induction n generalizing st with
  | zero =>
      -- nothing more to say, and no more in the buffer than fits
      have hle := (sendValid_of_reachable h.reachable 0).getStoredSize_le
      rw [← CircularBuffer.length_contents] at hle
      exact absurd hmany (Nat.not_lt_of_le hle)
  | succ n ih =>
      obtain ⟨st', h', hbody, hdisc | ⟨halone', hlen, hcapacity⟩⟩ := h.read halone
      · exact ⟨st', n, h', hhead.next hbody, hdisc⟩
      · refine ih h' halone' (hhead.next hbody) ?_
        rw [hlen, hcapacity]
        omega

theorem length_chats (n : Nat) : (chats last n).length = 264 * n + last.length := by
  rw [chats, List.length_append, List.length_flatten, List.map_replicate, List.sum_replicate_nat,
    length_chatPacket, Nat.mul_comm]

/-- A player logs in, and in its next receive come 35 chats and what comes last. -/
theorem exists_chatting (last : List UInt8) (hlast : last.length ≤ 8) :
    ∃ (w : World) (st : Server), Chatting st last 35 ∧ Alone st.world ∧
      World.sendCapacity (st.world.sessions 0) = BUFSIZE ∧
      st.world = w.commitRecv 0 (chats last 35).length := by
  obtain ⟨st, hst, hlistening, hplayer⟩ := exists_loggedIn
  have hrun : (system.run (new 0 (fun _ => true) onePlayer) loginEvents).map
      (fun st => (st.world.mClientList.toList, st.world.os.answers st.world.os.asked,
        World.sendCapacity (st.world.sessions 0))) = some ([(5, 0)], true, BUFSIZE) := by
    decide +kernel
  rw [hst, Option.map_some, Option.some.injEq] at hrun
  simp only [Prod.mk.injEq] at hrun
  obtain ⟨hlist, hanswers, hcapacity⟩ := hrun
  have hlen : (chats last 35).length = 264 * 35 + last.length := length_chats 35
  have hne : chats last 35 ≠ [] := by
    rw [ne_eq, ← List.length_eq_zero_iff, hlen]
    omega
  have hsize : BUFSIZE = 10240 := rfl
  obtain ⟨st', rfl, hreach, hv, hc, houtbox⟩ :=
    hlistening.receive _ hne (by rw [hlen, hsize]; omega)
  have hcapacity' := World.fixes_recvCompletion (f := World.sendCapacity)
    ⟨fun _ _ => rfl, fun _ _ => rfl, fun _ _ => rfl⟩ st.world ⟨0, 0, BUFSIZE⟩ false
    (chats last 35) 0
  have halone : Alone st.world := ⟨hplayer, hlist, hanswers⟩
  obtain ⟨w, hw⟩ := World.exists_commitRecv ⟨0, 0, BUFSIZE⟩ hlistening.mConnected hne
  exact ⟨w, _, ⟨hreach, rfl, houtbox, hv, hc⟩, halone.receive hlistening.mConnected hne,
    hcapacity'.trans hcapacity, hw⟩

/-- What comes behind the chat that has no room is still read: the login
    request of a disconnected session pushes its job. -/
theorem disconnected_heeded :
    ∃ st this, system.Reachable st ∧ st.clientThread = .reading this ∧
      (st.world.sessions this).mConnected = false ∧ ¬ World.Unheeded this st.world := by
  obtain ⟨w, st, h, halone, hcapacity, -⟩ := exists_chatting loginPacket (by decide)
  have hmany : World.sendCapacity (st.world.sessions 0) < (st.buffered 0).length + 294 * 35 := by
    rw [hcapacity]
    exact Nat.lt_add_left _ (by decide)
  obtain ⟨st', k, h', -, hdisc⟩ := h.hungUp halone (.entry _) hmany
  refine ⟨st', 0, h'.reachable, h'.thread, hdisc, fun hun => ?_⟩
  refine (World.unheeded_iff h'.valid hdisc).mp hun ⟨loginPacket, .login, ?_, ?_⟩
  · rw [h'.contents]
    exact readsOn_chats _ k
  · have hlands : ∀ pid x y, World.Lands pid x y (loginPacket ++ []) .login := fun pid x y =>
      World.lands_of_conforming conforming_loginPacket (by decide) (Or.inl rfl)
    rw [List.append_nil] at hlands
    exact hlands _ _ _

/-- Nothing comes of the chats behind it, nor of a login request whose last
    bytes are missing. -/
theorem disconnected_unheeded_chats :
    ∃ st, system.Reachable st ∧ st.clientThread = .reading 0 ∧
      (st.world.sessions 0).mConnected = false ∧ loginPacket.take 5 <:+ (st.world.recv 0).contents ∧
      World.Unheeded 0 st.world := by
  obtain ⟨w, st, h, halone, hcapacity, hworld⟩ := exists_chatting (loginPacket.take 5) (by decide)
  have hmany : World.sendCapacity (st.world.sessions 0) < (st.buffered 0).length + 294 * 35 := by
    rw [hcapacity]
    exact Nat.lt_add_left _ (by decide)
  have hv := h.valid
  rw [hworld] at hv
  obtain ⟨st', k, h', hhead, hdisc⟩ := h.hungUp halone (.entry _) hmany
  rw [hworld] at hhead
  have hlast : ∀ r, World.registered? (PacketHeader.ofBytes (loginPacket.take 5)).mType = some r →
      (loginPacket.take 5).length < r.size := by
    intro r hr
    cases hr
    decide
  refine ⟨st', h'.reachable, h'.thread, hdisc, ?_,
    (World.disconnected_unheeded_iff w 0 _ st'.world hv hhead hdisc).mpr ?_⟩
  · rw [h'.contents]
    exact List.suffix_append _ _
  · rintro ⟨bs, r, hwalk, hlands⟩
    rw [h'.contents] at hwalk
    obtain ⟨j, rfl⟩ := exists_chats_of_readsOn hlast hwalk
    cases j with
    | zero => exact absurd hlands.size_le (Nat.not_le.mpr (hlast r hlands.registered))
    | succ j =>
        cases chat_of_dispatched hlands.dispatched hlands.registered
        rcases hlands.takesEffect with hlogin | ⟨hmove, -⟩
        · cases hlogin
        · cases hmove

end Server
end EasyGameServer
