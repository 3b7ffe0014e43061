/-
  EasyGameServer.Crowd.Places

  Where the players of a crowd are.  A session of the server is where the last
  move it has broadcast led, as long as it is connected; the dummy is where the
  last of its own moves that it has been told of led.  So the two agree as soon
  as the dummy has caught up.
-/

import EasyGameServer.Crowd.Logins

namespace EasyGameServer

open Lib
open OutPacket (stream stream_append lastMove)

namespace OutPacket

variable {id : Int32} {p : OutPacket} {packets : List OutPacket} {pos : CFloat × CFloat}

theorem move_eq_none (h : p.mPlayerId ≠ id) : p.move id = none := by
  cases p with
  | loginResult q => rfl
  | chatBroadcastResult q => rfl
  | moveBroadcastResult q => exact if_neg h

/-- A last move is a move. -/
theorem exists_of_lastMove (h : lastMove id packets = some pos) :
    ∃ p ∈ packets, p.mPlayerId = id ∧ p.move id = some pos := by
  obtain ⟨p, hp, hmove⟩ := List.mem_filterMap.mp (List.mem_of_getLast? h)
  refine ⟨p, hp, ?_, hmove⟩
  by_contra hne
  rw [move_eq_none hne] at hmove
  cases hmove

end OutPacket

namespace World

variable {w w' : World} {this : SessionId}

/-- What an iteration of `OnRead` does to the places. -/
inductive Moving (w w' : World) (this : SessionId) : Prop
  | silent (hprofile : ∀ i, (w'.sessions i).profile = (w.sessions i).profile)
      (hcasts : w'.broadcasts = w.broadcasts)
  /-- Who relays a move is there. -/
  | relayed (w₁ : World) (pkt : OutPacket) (hprep : Prepares w w₁)
      (hrelay : w' = w₁.relay this pkt)
      (hothers : ∀ i, i ≠ this → (w'.sessions i).profile = (w.sessions i).profile)
      (hplace : ∀ id pos, pkt.move id = some pos →
        ((w'.sessions this).mPosX, (w'.sessions this).mPosY) = pos)
      (hstays : (∀ id, pkt.move id = none) →
        (w'.sessions this).profile = (w.sessions this).profile)

theorem moving_handler {r : Registered} {bytes : List UInt8} {rest : CircularBuffer}
    (hread : (w.sessions this).mRecvBuffer.read r.size = some (bytes, rest))
    (h : r.handler this w = some w') : Moving w w' this := by
  have hprep := prepares_consumed w this r.type bytes rest
  have hconsumed := profile_consumed w this r.type bytes rest
  cases handled_of_read hread h with
  | login hr => exact .silent hconsumed hprep.broadcasts
  | refused hr hpid => exact .silent hconsumed hprep.broadcasts
  | chat hr hpid pkt hpkt =>
      have hrelay := relayed_relay (w.consumed this r.type bytes rest) this
        (.chatBroadcastResult pkt)
      refine .relayed _ _ hprep rfl (fun i _ => (hrelay.profile i).trans (hconsumed i)) ?_
        (fun _ => (hrelay.profile this).trans (hconsumed this))
      intro id pos hmove
      cases hmove
  | move hr hpid =>
      have hmoved := prepares_setPosition (w.consumed this r.type bytes rest) this
        (MoveRequest.ofBytes bytes).mPosX (MoveRequest.ofBytes bytes).mPosY
      have hrelay := relayed_relay
        ((w.consumed this r.type bytes rest).modify this (fun s =>
          s.setPosition (MoveRequest.ofBytes bytes).mPosX (MoveRequest.ofBytes bytes).mPosY))
        this (.moveBroadcastResult ⟨claimedPlayerId bytes, (MoveRequest.ofBytes bytes).mPosX,
          (MoveRequest.ofBytes bytes).mPosY⟩)
      refine .relayed _ _ (hprep.trans hmoved) rfl (fun i hi => ?_) (fun id pos hmove => ?_)
        (fun hnone => ?_)
      · rw [hrelay.profile i, modify, sessions_put_of_ne _ _ hi]
        exact hconsumed i
      · have hself := hrelay.profile this
        rw [sessions_modify_self] at hself
        have hx := congrArg Profile.mPosX hself
        have hy := congrArg Profile.mPosY hself
        simp only [OutPacket.move, Option.ite_none_right_eq_some, Option.some.injEq] at hmove
        rw [← hmove.2]
        exact Prod.ext hx hy
      · have hmove := hnone (claimedPlayerId bytes)
        rw [OutPacket.move, if_pos rfl] at hmove
        cases hmove

theorem moving_onReadBody (h : onReadBody this w = .again w') : Moving w w' this := by
  cases readsAgain_of_onReadBody h with
  | hungUp =>
      have hsteady := steady_disconnect w this
      exact .silent hsteady.profile (broadcasts_congr hsteady.trace)
  | short => exact .silent (fun _ => rfl) rfl
  | read _ _ _ _ _ hread hrun => exact moving_handler hread hrun

end World

namespace Server

variable {st st' : Server} {i this : SessionId} {id : Int32}

-- ============================================================================
-- Where a session is
-- ============================================================================

/-- As long as it is connected, a session is where the player's last move led. -/
def StandsAt (st : Server) (i : SessionId) (id : Int32) : Prop :=
  (st.world.sessions i).mConnected = true → ∀ pos, lastMove id st.casts = some pos →
    ((st.world.sessions i).mPosX, (st.world.sessions i).mPosY) = pos

/-- Nothing is taken back of what has been broadcast. -/
theorem broadcasts_step {a : Event} (hstep : st.step a = some st') :
    st.world.broadcasts <+: st'.world.broadcasts := by
  obtain ⟨ns, htrace⟩ := trace_step hstep
  rw [World.broadcasts_append htrace]
  exact List.prefix_append _ _

section Step

variable (hr : system.Reachable st) (hspoken : Spoken st.world)
  {a : Event} (hstep : st.step a = some st')
  (hsender : ∀ j pkt, (j, pkt) ∈ st'.world.broadcasts → (pkt.mPlayerId = id ↔ j = i))

include hstep hsender

/-- Who has moved has broadcast it. -/
theorem cast_of_lastMove {pos : CFloat × CFloat} (hlast : lastMove id st.casts = some pos) :
    ∃ pkt, (i, pkt) ∈ st.world.broadcasts := by
  obtain ⟨pkt, hpkt, hid, -⟩ := OutPacket.exists_of_lastMove hlast
  obtain ⟨⟨j, p⟩, hmem, rfl⟩ := List.mem_map.mp hpkt
  obtain rfl := (hsender j p ((broadcasts_step hstep).subset hmem)).mp hid
  exact ⟨p, hmem⟩

include hr hspoken

/-- A session that has not moved stands where it stood. -/
theorem StandsAt.stay (h : StandsAt st i id)
    (hprofile : i ≠ st.world.next → (st'.world.sessions i).profile = (st.world.sessions i).profile)
    (hcasts : lastMove id st'.casts = lastMove id st.casts) : StandsAt st' i id := by
  intro hconn pos hlast
  rw [hcasts] at hlast
  -- a session that is new has broadcast nothing
  obtain ⟨pkt, hcast⟩ := cast_of_lastMove hstep hsender hlast
  have hold : i ≠ st.world.next := by
    intro hnew
    have hnobody := (known_of_reachable hr).unused i (Nat.le_of_eq hnew.symm)
    have hmem := hspoken.mem_logins hcast
    have hplayer := player_playOf st.world.trace i
    rw [hnobody] at hplayer
    rw [List.getLast?_eq_none_iff.mp hplayer.symm] at hmem
    cases hmem
  have hbefore : (st.world.sessions i).mConnected = true := by
    rcases mConnected_step hstep (sound_of_reachable hr).keyed hconn with hbefore | ⟨hnew, -⟩
    · exact hbefore
    · exact absurd hnew hold
  have hx := congrArg Profile.mPosX (hprofile hold)
  have hy := congrArg Profile.mPosY (hprofile hold)
  exact (Prod.ext hx hy).trans (h hbefore pos hlast)

/-- A packet is relayed, perhaps a move. -/
theorem StandsAt.relay (h : StandsAt st i id) (hlinger : LingerSet st .read)
    (hthread : st.clientThread = .reading this)
    (hbody : World.onReadBody this st.world = .again st'.world) : StandsAt st' i id := by
  cases World.moving_onReadBody hbody with
  | silent hprofile hcasts =>
      refine h.stay hr hspoken hstep hsender (fun _ => hprofile i) ?_
      rw [casts, hcasts, casts]
  | relayed w₁ pkt hprep hrelay hothers hplace hstays =>
      have hrel := relaying_of_relayed hr hlinger hprep hthread hbody hrelay
      have hcasts : st'.casts = st.casts ++
          if (st.world.sessions this).accepts pkt then [pkt] else [] := by
        rw [casts, hrel.broadcasts, List.map_append, casts]
        split
        · rfl
        · rfl
      by_cases hi : i = this
      · subst hi
        intro hconn
        -- it has stayed connected, so its own copy was accepted
        have haccepts : (st.world.sessions i).accepts pkt = true :=
          (hrel.offered i (Or.inl rfl)).1.symm.trans hconn
        rw [haccepts, if_pos rfl] at hcasts
        cases hmove : pkt.move id with
        | some pos' =>
            intro pos hlast
            have hnow : lastMove id st'.casts = some pos' := by
              rw [hcasts, lastMove, List.filterMap_append]
              simp [hmove]
            rw [hnow] at hlast
            exact (hplace id pos' hmove).trans (Option.some.inj hlast)
        | none =>
            have hname : pkt.mPlayerId = id := by
              refine (hsender i pkt ?_).mpr rfl
              rw [hrel.broadcasts, haccepts]
              exact List.mem_append_right _ List.mem_cons_self
            have hnone : ∀ id', pkt.move id' = none := by
              intro id'
              cases pkt with
              | moveBroadcastResult q =>
                  have hid : q.mPlayerId = id := hname
                  rw [OutPacket.move, if_pos hid] at hmove
                  cases hmove
              | _ => rfl
            refine h.stay hr hspoken hstep hsender (fun _ => hstays hnone) ?_ hconn
            rw [hcasts, OutPacket.lastMove_concat_none hmove]
      · refine h.stay hr hspoken hstep hsender (fun _ => hothers i hi) ?_
        rw [hcasts]
        split
        next haccepts =>
          refine OutPacket.lastMove_concat_none (OutPacket.move_eq_none ?_)
          intro hname
          refine hi ((hsender this pkt ?_).mp hname).symm
          rw [hrel.broadcasts, haccepts]
          exact List.mem_append_right _ List.mem_cons_self
        next => rw [List.append_nil]

theorem StandsAt.step (h : StandsAt st i id) (hlinger : LingerSet st a)
    (hlogins : logins st'.world.trace i <+: [id]) : StandsAt st' i id := by
  have hquiet : st'.world.trace = st.world.trace →
      lastMove id st'.casts = lastMove id st.casts := by
    intro htrace
    rw [casts, World.broadcasts_congr htrace, casts]
  cases step_plays hstep with
  | steady _ hsteady =>
      exact h.stay hr hspoken hstep hsender (fun _ => hsteady.profile i) (hquiet hsteady.trace)
  | take sendMem recvMem hprofile htrace =>
      refine h.stay hr hspoken hstep hsender (fun hold => ?_) (hquiet htrace)
      exact (hprofile i).trans (if_neg hold)
  | read this r bytes hthread hreads hheard =>
      cases step_moves hstep with
      | readAgain this' w _ hthread' hbody =>
          exact h.relay hr hspoken hstep hsender hlinger hthread' hbody
      | readLeave this' w _ hthread' hbody =>
          have hsteady :=
            (World.steady_onReadBody_leave hbody).trans (World.steady_recvExit w this')
          exact h.stay hr hspoken hstep hsender (fun _ => hsteady.profile i) (hquiet hsteady.trace)
  | dispatch t q client login hq hsuccess hdata hreg hconn hdone =>
      have hlogged := World.loggedIn_of_eq hdone
      have hcasts : lastMove id st'.casts = lastMove id st.casts := by
        rw [casts, World.broadcasts_append hlogged.trace, casts]
        simp
      by_cases hi : i = client
      · intro _ pos hlast
        -- a session that has moved has been logged in before
        rw [hcasts] at hlast
        obtain ⟨pkt, hcast⟩ := cast_of_lastMove hstep hsender hlast
        have hmem := hspoken.mem_logins hcast
        have hlen := hlogins.length_le
        rw [hlogged.trace, logins_append, List.length_append, List.length_singleton] at hlen
        have hone : (logins [.loginDone client login.mPlayerId] i).length = 1 := by
          simp [logins, hi]
        have hpos := List.length_pos_of_mem hmem
        omega
      · refine h.stay hr hspoken hstep hsender (fun _ => ?_) hcasts
        exact (hlogged.profile i).trans (if_neg hi)

end Step

end Server

namespace DummyClient

/-- Where a call of `HandleReadPayload` has seen a player move. -/
def PayloadCall.move (id : Int32) (call : PayloadCall) : Option (CFloat × CFloat) :=
  call.pktResult.bind fun r =>
    match r.2 with
    | .moveBroadcastResult q => if q.mPlayerId = id then some (q.mPosX, q.mPosY) else none
    | _ => none

theorem ClientSession.move_seen (id : Int32) (p : OutPacket) : (seen p).move id = p.move id := by
  cases p with
  | loginResult q => rfl
  | chatBroadcastResult q => rfl
  | moveBroadcastResult q => rfl

end DummyClient

namespace Crowd

open DummyClient
open DummyClient.ClientSession (headerRead)

variable {arith : FloatArith} {c c' : Crowd} {i : SessionId}

-- ============================================================================
-- Where the players are
-- ============================================================================

/-- Every session stands where its last move led. -/
theorem standsAt (h : (system arith).ReachableBy Undisturbed c) (i : SessionId)
    (hi : i < c.mTotalDummyCount) : c.server.StandsAt i (c.dummies i).mPlayerId := by
  induction h with
  | @init c h =>
      obtain ⟨⟨⟨tick, answers, players, heq⟩, -⟩, -⟩ := h
      intro _ pos hlast
      rw [heq] at hlast
      cases hlast
  | @step c c' e hr hok hstep ih =>
      have hbefore := settled hr
      have hafter := settled (hr.step hok hstep)
      obtain ⟨⟨htotal, hids⟩, hserver⟩ := step_spec hstep
      have hstands := ih (htotal ▸ hi)
      rcases hserver with ⟨e, rfl, htaken⟩ | hsame
      · have horderly := hbefore.followed.heard.orderly
        have hspoken := Server.isInvariant_spoken.holds
          (horderly.mono fun _ _ hok => hok.namesSomebody)
        rw [← hids i] at hstands
        exact hstands.step horderly.of_startingWith.reachable hspoken htaken
          (hafter.sender_iff hi) hok.1.lingerSet (hafter.logins_le i)
      · rw [hsame, hids]
        exact hstands

/-- A dummy that has everything there is for it. -/
structure CaughtUp (c : Crowd) (i : SessionId) : Prop where
  present : Server.Present i c.server
  buffered : c.server.buffered i = []
  inFlight : c.inFlight i = []
  waiting : (c.dummies i).reading = some headerRead

theorem stream_eq_nil {packets : List OutPacket} (h : stream packets = []) : packets = [] := by
  cases packets with
  | nil => rfl
  | cons p packets =>
      have hlen := congrArg List.length h
      have hle := p.sizeofPacketHeader_le
      have hheader : sizeofPacketHeader = 4 := rfl
      rw [show stream (p :: packets) = p.toBytes ++ stream packets from rfl, List.length_append,
        List.length_nil] at hlen
      omega

theorem Told.rest_eq_nil {id : Int32} {start : CFloat × CFloat} {handled rest : List OutPacket}
    (h : Told c.server i (c.dummies i) (c.arrived i) (c.connected i) id start handled rest)
    (hcaught : CaughtUp c i) : rest = [] := by
  obtain ⟨since, hserved⟩ := h.served
  have hsent := hserved.line.transmitted_of_empty hcaught.buffered
  have hlen : (c.server.world.os.transmitted i).length ≤ c.arrived i :=
    List.drop_eq_nil_iff.mp hcaught.inFlight
  have harrived : c.arrived i = (stream handled).length := by
    cases h.place with
    | idle hidle => cases hidle.symm.trans hcaught.waiting
    | header _ harrived => exact harrived
    | payload p _ _ hread =>
        cases congrArg AsyncRead.handler (Option.some.inj (hread.symm.trans hcaught.waiting))
  rw [hsent, stream_append, List.length_append, harrived] at hlen
  apply stream_eq_nil
  apply List.eq_nil_of_length_eq_zero
  omega

/-- **The dummies know their places.**  In every undisturbed run of the crowd, a
    dummy whose session is registered and connected, with nothing buffered for
    it and nothing under way, is where the server has its session, once it has
    been told of a move of its own. -/
theorem dummies_know_places (arith : FloatArith) (c : Crowd)
    (h : (system arith).ReachableBy Undisturbed c) (i : SessionId) (hcaught : CaughtUp c i)
    (hmoved : ∃ call ∈ (c.dummies i).payloads, call.move (c.dummies i).mPlayerId ≠ none) :
    ((c.dummies i).mPosX, (c.dummies i).mPosY)
      = ((c.server.world.sessions i).mPosX, (c.server.world.sessions i).mPosY) := by
  have hsettled := settled h
  obtain ⟨id, start, handled, rest, htold⟩ := hsettled.followed.told i
  have hi := hsettled.named.within i (htold.isConnected hcaught.waiting)
  have hid := htold.made.mPlayerId
  -- the last of its moves is the last that has been broadcast
  obtain ⟨pos, hlast⟩ : ∃ pos, lastMove id handled = some pos := by
    obtain ⟨call, hcall, hmove⟩ := hmoved
    rw [htold.made.payloads] at hcall
    obtain ⟨p, hp, rfl⟩ := List.mem_map.mp hcall
    rw [ClientSession.move_seen, hid] at hmove
    obtain ⟨pos, hpos⟩ := Option.ne_none_iff_exists'.mp hmove
    have hmem : pos ∈ handled.filterMap (OutPacket.move id) := List.mem_filterMap.mpr ⟨p, hp, hpos⟩
    exact ⟨_, List.getLast?_eq_some_getLast (List.ne_nil_of_mem hmem)⟩
  obtain ⟨since, hserved⟩ := htold.served
  have hsuffix := hserved.isSuffix hcaught.present
  rw [htold.rest_eq_nil hcaught, List.append_nil] at hsuffix
  have hcasts : lastMove id c.server.casts = some pos := by
    apply OutPacket.lastMove_of_suffix hsuffix
    rw [OutPacket.lastMove_filter_isRelayed]
    exact hlast
  rw [← hid] at hcasts
  have hserver := standsAt h i hi hcaught.present.2 pos hcasts
  have hdummy : ((c.dummies i).mPosX, (c.dummies i).mPosY) = (lastMove id handled).getD start :=
    congrArg ClientSession.Own.pos htold.made.own
  rw [hdummy, hlast, hserver]
  rfl

theorem dummies_know_places_walk :
    ∃ c, (system Game.fromZero).ReachableBy Undisturbed c ∧ CaughtUp c 0 ∧
      ((c.server.world.sessions 0).mPosX, (c.server.world.sessions 0).mPosY)
        = (0xC2480000, 0xC1F00000) := by
  have hrun : ((system Game.fromZero).runIf isUndisturbed twoDummies walkEvents).map
      (fun c => (decide (c.server.world.mClientList[5]? = some 0 ∧
          (c.server.world.sessions 0).mConnected = true),
        decide (c.server.buffered 0 = [] ∧ c.inFlight 0 = [] ∧
          (c.dummies 0).reading = some headerRead),
        ((c.dummies 0).payloads.filterMap (PayloadCall.move (c.dummies 0).mPlayerId)).length,
        (c.dummies 0).mPosX, (c.dummies 0).mPosY))
        = some (true, true, 1, 0xC2480000, 0xC1F00000) := by
    decide +kernel
  obtain ⟨c, hc, hall⟩ := Option.map_eq_some_iff.mp hrun
  simp only [Prod.mk.injEq, decide_eq_true_eq] at hall
  obtain ⟨⟨hlisted, hconn⟩, ⟨hbuffered, hflight, hreading⟩, hlen, hx, hy⟩ := hall
  have hinit : (system Game.fromZero).ReachableBy Undisturbed twoDummies := .init start_twoDummies
  have hreach := hinit.runIf undisturbed_of_isUndisturbed hc
  have hcaught : CaughtUp c 0 := ⟨⟨⟨5, hlisted⟩, hconn⟩, hbuffered, hflight, hreading⟩
  have hmoved : ∃ call ∈ (c.dummies 0).payloads, call.move (c.dummies 0).mPlayerId ≠ none := by
    obtain ⟨pos, hpos⟩ := List.exists_mem_of_length_pos (hlen ▸ Nat.one_pos)
    obtain ⟨call, hcall, hmove⟩ := List.mem_filterMap.mp hpos
    refine ⟨call, hcall, ?_⟩
    rw [hmove]
    exact Option.some_ne_none _
  refine ⟨c, hreach, hcaught, ?_⟩
  rw [← dummies_know_places Game.fromZero c hreach 0 hcaught hmoved, hx, hy]

end Crowd
end EasyGameServer
