/-
  EasyGameServer.Screens

  What the players see.  A screen is what the Cocos thread has performed, which
  is what the network thread has posted for the packets it has handled, which
  are a stretch of what the server has broadcast.

  So the screens agree: a client that has caught up shows a player where the
  last of the player's moves led, whether the player is its own or a peer.
-/

import EasyGameServer.Game
import EasyGameServer.TcpClient.Posting

namespace EasyGameServer

open Lib

-- ============================================================================
-- What a scene shows
-- ============================================================================

open OutPacket (lastMove)

def SceneCall.chat : SceneCall → Option (List UInt8 × List UInt8)
  | .chatDraw sender msg => some (sender.bytes.takeWhile (· ≠ 0), msg.bytes.takeWhile (· ≠ 0))
  | _ => none

theorem HelloWorld.chats_foldl_perform (scene : HelloWorld) (calls : List SceneCall) :
    (calls.foldl HelloWorld.perform scene).chats
      = scene.chats ++ calls.filterMap SceneCall.chat := by
  induction calls generalizing scene with
  | nil => exact (List.append_nil _).symm
  | cons call calls ih =>
      rw [List.foldl_cons, ih]
      cases call with
      | chatDraw sender msg =>
          show (scene.chats ++ [_]) ++ _ = _
          rw [List.append_assoc]
          rfl
      | _ => rfl

namespace Outcome

/-- A client that has handled these packets. -/
def seen (packets : List OutPacket) : Outcome := packets.foldl see start

/-- Its scene, when everything it has posted has been performed. -/
def scene (o : Outcome) (pos : CFloat × CFloat) : HelloWorld :=
  o.calls.foldl HelloWorld.perform (.init pos)

variable {pos : CFloat × CFloat} {packets : List OutPacket} {p : OutPacket} {id : Int32}

theorem seen_concat : seen (packets ++ [p]) = (seen packets).see p := by
  rw [seen, List.foldl_append]
  rfl

theorem scene_post (o : Outcome) (call : SceneCall) :
    (o.post call).scene pos = (o.scene pos).perform call := by
  rw [scene, post, List.foldl_append]
  rfl

/-- The chats posted are the chats. -/
theorem filterMap_calls_seen (packets : List OutPacket) :
    (seen packets).calls.filterMap SceneCall.chat = packets.filterMap OutPacket.chat := by
  induction packets using List.reverseRecOn with
  | nil => rfl
  | append_singleton packets p ih =>
      rw [seen_concat, List.filterMap_append, ← ih]
      cases p with
      | loginResult q => exact (List.append_nil _).symm
      | chatBroadcastResult q => exact List.filterMap_append
      | moveBroadcastResult q =>
          show ((seen packets).calls ++ [_]).filterMap SceneCall.chat = _
          rw [List.filterMap_append]
          congr 1
          split
          · rfl
          · rfl

/-- A client is who its last login said. -/
theorem mLoginId_seen (packets : List OutPacket) :
    (seen packets).mLoginId = -1 ∨ (seen packets).mLoginId ∈ packets.filterMap OutPacket.login := by
  induction packets using List.reverseRecOn with
  | nil => exact Or.inl rfl
  | append_singleton packets p ih =>
      rw [seen_concat, List.filterMap_append, List.mem_append]
      cases p with
      | loginResult q => exact Or.inr (Or.inr List.mem_cons_self)
      | chatBroadcastResult q => exact ih.imp_right Or.inl
      | moveBroadcastResult q => exact ih.imp_right Or.inl

/-- A peer's sprite is where the peer's last move led. -/
theorem mPeerMap_seen (hnamed : ∀ p ∈ packets, p.mPlayerId ≠ -1)
    (hid : id ∉ packets.filterMap OutPacket.login) :
    ((seen packets).scene pos).mPeerMap id = lastMove id packets := by
  induction packets using List.reverseRecOn with
  | nil => rfl
  | append_singleton packets p ih =>
      rw [List.filterMap_append, List.mem_append, not_or] at hid
      have hbefore := ih (fun p hp => hnamed p (List.mem_append_left _ hp)) hid.1
      have hp := hnamed p (List.mem_append_right _ List.mem_cons_self)
      rw [seen_concat]
      cases p with
      | loginResult q => exact hbefore.trans (OutPacket.lastMove_concat_none rfl).symm
      | chatBroadcastResult q =>
          rw [see, scene_post]
          exact hbefore.trans (OutPacket.lastMove_concat_none rfl).symm
      | moveBroadcastResult q =>
          rw [see, move, scene_post]
          by_cases hq : q.mPlayerId = id
          · -- the client has never been this player
            have hme : q.mPlayerId ≠ (seen packets).mLoginId := by
              intro heq
              rcases mLoginId_seen packets with hnobody | hlogin
              · exact hp (heq.trans hnobody)
              · rw [← heq, hq] at hlogin
                exact hid.1 hlogin
            rw [if_neg hme, OutPacket.lastMove_concat_move hq]
            exact if_pos hq.symm
          · rw [OutPacket.lastMove_concat_other hq, ← hbefore]
            split
            · rfl
            · exact if_neg (Ne.symm hq)

/-- Nobody moves before a login. -/
theorem not_moved_seen (hnamed : ∀ p ∈ packets, p.mPlayerId ≠ -1)
    (hnobody : (seen packets).mLoginId = -1) (x y : CFloat) :
    .updateMe x y ∉ (seen packets).calls := by
  induction packets using List.reverseRecOn with
  | nil => exact List.not_mem_nil
  | append_singleton packets p ih =>
      have hbefore := ih (fun p hp => hnamed p (List.mem_append_left _ hp))
      have hp := hnamed p (List.mem_append_right _ List.mem_cons_self)
      rw [seen_concat] at hnobody ⊢
      cases p with
      | loginResult q => exact absurd hnobody hp
      | chatBroadcastResult q =>
          intro hmem
          rcases List.mem_append.mp hmem with hmem | hmem
          · exact hbefore hnobody hmem
          · cases List.mem_singleton.mp hmem
      | moveBroadcastResult q =>
          have hme : q.mPlayerId ≠ (seen packets).mLoginId := fun heq => hp (heq.trans hnobody)
          intro hmem
          rcases List.mem_append.mp hmem with hmem | hmem
          · exact hbefore hnobody hmem
          · rw [if_neg hme] at hmem
            cases List.mem_singleton.mp hmem

/-- The player's own sprite, once it has moved, is where the last move led. -/
theorem mPlayerSprite_seen (hnamed : ∀ p ∈ packets, p.mPlayerId ≠ -1)
    (hlogin : ∀ id' ∈ packets.filterMap OutPacket.login, id' = id) {x y : CFloat}
    (hmoved : .updateMe x y ∈ (seen packets).calls) :
    lastMove id packets = some ((seen packets).scene pos).mPlayerSprite := by
  induction packets using List.reverseRecOn generalizing x y with
  | nil => exact absurd hmoved List.not_mem_nil
  | append_singleton packets p ih =>
      have hearlier : ∀ p ∈ packets, p.mPlayerId ≠ -1 :=
        fun p hp => hnamed p (List.mem_append_left _ hp)
      have hlogins : ∀ id' ∈ packets.filterMap OutPacket.login, id' = id := fun id' hid' =>
        hlogin id' (List.filterMap_append ▸ List.mem_append_left _ hid')
      have hp := hnamed p (List.mem_append_right _ List.mem_cons_self)
      rw [seen_concat] at hmoved ⊢
      cases p with
      | loginResult q =>
          rw [OutPacket.lastMove_concat_none rfl]
          exact ih hearlier hlogins hmoved
      | chatBroadcastResult q =>
          rw [OutPacket.lastMove_concat_none rfl, see, scene_post]
          rcases List.mem_append.mp hmoved with hmoved | hmoved
          · exact ih hearlier hlogins hmoved
          · cases List.mem_singleton.mp hmoved
      | moveBroadcastResult q =>
          rw [see, move, scene_post]
          by_cases hme : q.mPlayerId = (seen packets).mLoginId
          · have hid : q.mPlayerId = id := by
              rcases mLoginId_seen packets with hnobody | hmem
              · exact absurd (hme.trans hnobody) hp
              · exact hlogins _ (hme ▸ hmem)
            rw [if_pos hme]
            exact OutPacket.lastMove_concat_move hid
          · rw [if_neg hme]
            rcases List.mem_append.mp hmoved with hmoved | hmoved
            · -- somebody has logged in, and only this player
              have hid : q.mPlayerId ≠ id := by
                intro heq
                rcases mLoginId_seen packets with hnobody | hmem
                · exact not_moved_seen hearlier hnobody x y hmoved
                · exact hme (heq.trans (hlogins _ hmem).symm)
              rw [OutPacket.lastMove_concat_other hid]
              exact ih hearlier hlogins hmoved
            · rw [if_neg hme] at hmoved
              cases List.mem_singleton.mp hmoved

end Outcome

-- ============================================================================
-- The screens of a game
-- ============================================================================

/-- The ids under which the client has been told it is logged in. -/
def TcpClient.logins (client : TcpClient) : List Int32 :=
  client.dispatched.filterMap (fun recvData =>
    if (PacketHeader.ofBytes recvData).mType = PacketTypes.pktScLogin.value then
      some (Received.LoginResult.ofBytes recvData).mPlayerId
    else none)

theorem TcpClient.logins_eq {client : TcpClient} {packets : List OutPacket}
    (h : client.dispatched = packets.map OutPacket.toBytes) :
    client.logins = packets.filterMap OutPacket.login := by
  rw [logins, h, List.filterMap_map]
  congr 1
  funext p
  have hheader : PacketHeader.ofBytes p.toBytes = p.header := p.ofBytes_toBytes
  rw [Function.comp_apply, hheader]
  cases p with
  | loginResult q =>
      have htype : (OutPacket.loginResult q).header = LoginResult.header := rfl
      have hread : Received.LoginResult.ofBytes (OutPacket.loginResult q).toBytes = _ :=
        q.ofBytes_toBytes
      rw [htype, hread]
      exact if_pos (by decide)
  | chatBroadcastResult q =>
      exact if_neg (by decide : ChatBroadcastResult.header.mType ≠ PacketTypes.pktScLogin.value)
  | moveBroadcastResult q =>
      exact if_neg (by decide : MoveBroadcastResult.header.mType ≠ PacketTypes.pktScLogin.value)

theorem TcpClient.outcome_eq {client : TcpClient} (hposted : client.Posted)
    {packets : List OutPacket} (h : client.dispatched = packets.map OutPacket.toBytes) :
    client.outcome = Outcome.seen packets := by
  rw [hposted.outcome, h, Outcome.foldl_handle_toBytes, Outcome.seen]

namespace Game

variable {arith : FloatArith} {g g' : Game} {i : SessionId}

/-- A client's screen is what its Cocos thread has performed. -/
structure Shown (g : Game) (i : SessionId) : Prop where
  posted : (g.net.clients i).Posted
  scene : ∃ pos, g.scenes i
    = ((g.net.clients i).calls.take (g.performed i)).foldl HelloWorld.perform (.init pos)
  performed_le : g.performed i ≤ (g.net.clients i).calls.length

/-- Nothing has happened to a client and its screen. -/
theorem Shown.congr (h : Shown g i) (hclient : g'.net.clients i = g.net.clients i)
    (hscene : g'.scenes i = g.scenes i) (hperformed : g'.performed i = g.performed i) :
    Shown g' i := by
  refine ⟨?_, ?_, ?_⟩
  · rw [hclient]
    exact h.posted
  · rw [hclient, hscene, hperformed]
    exact h.scene
  · rw [hclient, hperformed]
    exact h.performed_le

/-- The Cocos thread performs what has been posted next. -/
theorem Shown.perform (h : Shown g i) {call : SceneCall}
    (hcall : (g.net.clients i).calls[g.performed i]? = some call)
    (hclient : g'.net.clients i = g.net.clients i)
    (hscene : g'.scenes i = (g.scenes i).perform call)
    (hperformed : g'.performed i = g.performed i + 1) : Shown g' i := by
  obtain ⟨pos, hbefore⟩ := h.scene
  obtain ⟨hlt, -⟩ := List.getElem?_eq_some_iff.mp hcall
  refine ⟨?_, ⟨pos, ?_⟩, ?_⟩
  · rw [hclient]
    exact h.posted
  · rw [hclient, hscene, hperformed, List.take_add_one, hcall, List.foldl_append, ← hbefore]
    rfl
  · rw [hclient, hperformed]
    exact hlt

theorem Shown.recv (h : Shown g i) {client : TcpClient}
    (hclient : TcpClient.Follows (g.net.clients i) client) {net : Network}
    (hi : net.clients i = client) : Shown { g with net := net } i := by
  obtain ⟨pos, hscene⟩ := h.scene
  refine ⟨?_, ⟨pos, ?_⟩, ?_⟩
  · show (net.clients i).Posted
    rw [hi]
    exact hclient.posted
  · show g.scenes i = ((net.clients i).calls.take (g.performed i)).foldl _ _
    obtain ⟨more, hmore⟩ := hclient.calls
    rw [hi, ← hmore, List.take_append_of_le_length h.performed_le]
    exact hscene
  · show g.performed i ≤ (net.clients i).calls.length
    rw [hi]
    exact Nat.le_trans h.performed_le hclient.calls.length_le

theorem isInvariant_shown (arith : FloatArith) :
    (system arith).IsInvariant System.always (fun g => ∀ i, Shown g i) where
  init := by
    rintro g ⟨⟨-, hclients, -⟩, hscenes, hperformed, -⟩ i
    obtain ⟨mem, hclient⟩ := hclients i
    obtain ⟨pos, hscene⟩ := hscenes i
    refine ⟨?_, ⟨pos, ?_⟩, ?_⟩
    · rw [hclient]
      exact TcpClient.posted_new mem
    · rw [hperformed, hscene]
      rfl
    · rw [hperformed]
      exact Nat.zero_le _
  step := by
    intro g a g' _ h _ hstep i
    cases a with
    | server e =>
        simp only [system, step] at hstep
        split at hstep
        next =>
          obtain ⟨net, hnet, heq⟩ := Option.map_eq_some_iff.mp hstep
          obtain ⟨server, -, heq'⟩ := Option.map_eq_some_iff.mp hnet
          cases heq
          cases heq'
          exact (h i).congr rfl rfl rfl
        next => cases hstep
    | recv j len =>
        obtain ⟨net, hnet, heq⟩ := Option.map_eq_some_iff.mp hstep
        cases heq
        simp only [Network.step] at hnet
        split at hnet
        next =>
          obtain ⟨client, hthread, heq⟩ := Option.map_eq_some_iff.mp hnet
          cases heq
          by_cases hi : i = j
          · subst hi
            exact (h i).recv (TcpClient.follows_networkThread (h i).posted hthread) (if_pos rfl)
          · exact (h i).recv ⟨(h i).posted, List.prefix_refl _⟩ (if_neg hi)
        next => cases hnet
    | perform j =>
        simp only [system, step] at hstep
        split at hstep
        next => cases hstep
        next call hcall =>
          cases hstep
          by_cases hi : i = j
          · subst hi
            exact (h i).perform hcall rfl (if_pos rfl) (if_pos rfl)
          · exact (h i).congr rfl (if_neg hi) (if_neg hi)
    | key j keyCode rand sock =>
        simp only [system, step] at hstep
        split at hstep
        · cases hstep
          exact h i
        · cases hstep
          exact (h i).congr rfl rfl rfl

/-- Everything the server had for the client is on its screen. -/
structure CaughtUp (g : Game) (i : SessionId) : Prop where
  present : Server.Present i g.net.server
  buffered : g.net.server.buffered i = []
  inFlight : g.net.inFlight i = []
  performed : g.performed i = (g.net.clients i).calls.length

/-- The screen shows a player there: as a peer the client has never been, or as
    the one player it has been, when that has been moved. -/
def Shows (g : Game) (i : SessionId) (id : Int32) (pos : CFloat × CFloat) : Prop :=
  id ∉ (g.net.clients i).logins ∧ (g.scenes i).mPeerMap id = some pos ∨
    (∀ id' ∈ (g.net.clients i).logins, id' = id) ∧
      (∃ x y, .updateMe x y ∈ (g.net.clients i).calls) ∧ (g.scenes i).mPlayerSprite = pos

/-- **The screens follow the broadcasts.**  In every fair run of the game the
    chats on a screen lie next to each other in what the server has broadcast.
    The screen of a client that has caught up is made from the last broadcasts:
    their chats, and their peers where each last moved.  Wherever a player is
    shown on such a screen, there the player's last move has led; so all such
    screens agree. -/
theorem screens_follow (arith : FloatArith) (g : Game) (h : (system arith).ReachableBy Fair g)
    (i : SessionId) :
    (g.scenes i).chats <:+: g.net.server.casts.filterMap OutPacket.chat ∧
      (CaughtUp g i →
        (∃ since, since <:+ g.net.server.casts ∧
          (g.scenes i).chats = since.filterMap OutPacket.chat ∧
          ∀ id, id ∉ (g.net.clients i).logins →
            (g.scenes i).mPeerMap id = lastMove id since) ∧
        ∀ id pos, g.Shows i id pos → lastMove id g.net.server.casts = some pos) := by
  have hshown := (isInvariant_shown arith).holds h.reachable i
  obtain ⟨since, handled, rest, hlinked⟩ :=
    Network.isInvariant_linked.holds ((isInvariant_heard arith).holds h).orderly i
  have hdispatched := hlinked.midway.dispatched
  have hcalls : (g.net.clients i).calls = (Outcome.seen handled).calls :=
    congrArg Outcome.calls (TcpClient.outcome_eq hshown.posted hdispatched)
  have hchats : (g.net.clients i).calls.filterMap SceneCall.chat
      = (handled.filter OutPacket.isRelayed).filterMap OutPacket.chat := by
    rw [hcalls, Outcome.filterMap_calls_seen, OutPacket.filterMap_filter_isRelayed (fun _ => rfl)]
  have hnamed : ∀ p ∈ handled, p.mPlayerId ≠ -1 := fun p hp =>
    hlinked.served.named p (List.mem_append_left _ hp)
  obtain ⟨start, hscene⟩ := hshown.scene
  refine ⟨?_, fun hcaught => ?_⟩
  · have hinfix := hlinked.served.heard_infix.filterMap OutPacket.chat
    rw [← hchats] at hinfix
    rw [hscene, HelloWorld.chats_foldl_perform]
    exact ((List.take_prefix _ _).filterMap SceneCall.chat).isInfix.trans hinfix
  · have hlast := hlinked.served.isSuffix hcaught.present
    rw [hlinked.rest_eq_nil hcaught.buffered hcaught.inFlight, List.append_nil] at hlast
    rw [hcaught.performed, List.take_length] at hscene
    have hall : g.scenes i = (Outcome.seen handled).scene start := by
      rw [hscene, hcalls, Outcome.scene]
    have hmove : ∀ id pos, g.Shows i id pos → lastMove id handled = some pos := by
      rintro id pos (⟨hid, hpeer⟩ | ⟨hlogin, ⟨x, y, hmoved⟩, hsprite⟩)
      · rw [TcpClient.logins_eq hdispatched] at hid
        rw [hall, Outcome.mPeerMap_seen hnamed hid] at hpeer
        exact hpeer
      · rw [TcpClient.logins_eq hdispatched] at hlogin
        rw [hcalls] at hmoved
        rw [← hsprite, hall]
        exact Outcome.mPlayerSprite_seen hnamed hlogin hmoved
    refine ⟨⟨handled.filter OutPacket.isRelayed, hlast, ?_, fun id hid => ?_⟩,
      fun id pos hshows => ?_⟩
    · rw [hscene, HelloWorld.chats_foldl_perform, hchats]
      rfl
    · rw [TcpClient.logins_eq hdispatched] at hid
      rw [hall, Outcome.mPeerMap_seen hnamed hid, OutPacket.lastMove_filter_isRelayed]
    · have hrelayed := hmove id pos hshows
      rw [← OutPacket.lastMove_filter_isRelayed] at hrelayed
      exact OutPacket.lastMove_of_suffix hlast hrelayed

/-- Both clients get the first one's move. -/
def shownEvents : List Event :=
  loginEvents ++ [.recv 0 4096, press 0 .keyUpArrow] ++
    [.recvCompletion ⟨0, 0, BUFSIZE⟩ false [16, 0, 21, 0, 232, 3, 0, 0, 0, 0, 0, 0, 0, 0, 32, 65],
      .read, .read, .wake, .flush, .sendCompletion ⟨0, 16⟩ false 16,
      .sendCompletion ⟨1, 16⟩ false 16].map Event.server ++
    [.recv 0 4096, .recv 1 4096, .perform 0, .perform 1]

theorem screens_follow_move :
    ∃ g, (system fromZero).ReachableBy Fair g ∧ CaughtUp g 1 ∧
      (g.scenes 1).mPeerMap 1000 = some (0, HelloWorld.ten) ∧
      lastMove 1000 g.net.server.casts = some (0, HelloWorld.ten) := by
  have hrun : ((system fromZero).runIf isFair newGame shownEvents).map
      (fun g => (decide (g.net.server.world.mClientList[6]? = some 1),
        (g.net.server.world.sessions 1).mConnected,
        decide (g.net.server.buffered 1 = [] ∧ g.net.inFlight 1 = [] ∧
          g.performed 1 = (g.net.clients 1).calls.length ∧ (g.net.clients 1).logins = []),
        decide ((g.scenes 1).mPeerMap 1000 = some (0, HelloWorld.ten))))
        = some (true, true, true, true) := by
    decide +kernel
  obtain ⟨g, hg, hall⟩ := Option.map_eq_some_iff.mp hrun
  simp only [Prod.mk.injEq, decide_eq_true_eq] at hall
  obtain ⟨hlisted, hconn, ⟨hbuffered, hflight, hperformed, hlogins⟩, hpeer⟩ := hall
  have htakes : ∀ e ∈ shownEvents, e.TakesAll := by
    simp [shownEvents, loginEvents, press, Event.TakesAll, TcpClient.Socket.TakesAll, wholeSocket]
  have hreach : (system fromZero).ReachableBy Fair g :=
    (System.ReachableBy.init start_newGame).runIf_of_mem
      (fun e he => fair_of_isFair (htakes e he)) hg
  have hcaught : CaughtUp g 1 :=
    ⟨⟨⟨6, hlisted⟩, hconn⟩, hbuffered, hflight, hperformed⟩
  have hid : (1000 : Int32) ∉ (g.net.clients 1).logins := by
    rw [hlogins]
    exact List.not_mem_nil
  exact ⟨g, hreach, hcaught, hpeer,
    ((screens_follow fromZero g hreach 1).2 hcaught).2 1000 _ (Or.inl ⟨hid, hpeer⟩)⟩

end Game
end EasyGameServer
