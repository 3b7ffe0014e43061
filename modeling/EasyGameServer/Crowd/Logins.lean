/-
  EasyGameServer.Crowd.Logins

  Who the sessions of a crowd are.  A dummy asks once, for itself, so in a run
  in which no result goes to a session younger than its job a session is
  nobody's but its dummy's, and logged in once at most.  The dummy is told so
  once at most, and never has two waits of its timer outstanding, of which each
  would cancel the other.
-/

import EasyGameServer.Crowd
import EasyGameServer.Server.Answering

namespace EasyGameServer

open Lib

-- ============================================================================
-- What has been asked
-- ============================================================================

/-- The player a packet asks to be logged in as. -/
def loginAsked (bytes : List UInt8) : Option Int32 :=
  if (PacketHeader.ofBytes bytes).mType = PacketTypes.pktCsLogin.value then
    some (LoginRequest.ofBytes bytes).mPlayerId
  else none

/-- The server names what it has read by the type in the header. -/
def Typed (trace : List Note) : Prop :=
  ∀ i type bytes, Note.parsed i type bytes ∈ trace → (PacketHeader.ofBytes bytes).mType = type.value

namespace Server

variable {st st' : Server}

theorem mType_of_registered {mType : Int16} {r : World.Registered}
    (h : World.registered? mType = some r) : mType = r.type.value := by
  unfold World.registered? at h
  split at h
  next htype =>
    cases h
    exact htype
  next =>
    split at h
    next htype =>
      cases h
      exact htype
    next =>
      split at h
      next htype =>
        cases h
        exact htype
      next => cases h

theorem typed_step {a : Event} (h : Typed st.world.trace)
    (hreads : ∀ this r bytes, st.clientThread = .reading this → World.Reads st.world this r bytes →
      World.registered? (PacketHeader.ofBytes bytes).mType = some r)
    (hstep : st.step a = some st') : Typed st'.world.trace := by
  cases step_plays hstep with
  | steady _ hsteady =>
      rw [hsteady.trace]
      exact h
  | take sendMem recvMem hprofile htrace =>
      rw [htrace]
      exact h
  | read this r bytes hthread hread hheard =>
      obtain ⟨ns, htrace, hns⟩ := hheard.trace
      rw [htrace]
      intro i type bytes' hmem
      rcases List.mem_append.mp hmem with hmem | hmem
      · exact h i type bytes' hmem
      · rcases List.mem_cons.mp hmem with heq | hmem
        · cases heq
          exact mType_of_registered (hreads this r bytes hthread hread)
        · obtain ⟨-, -, pkt, heq, -⟩ := hns _ hmem
          cases heq
  | dispatch t q client login hq hsuccess hdata hreg hconn hdone =>
      rw [(World.loggedIn_of_eq hdone).trace]
      intro i type bytes hmem
      rcases List.mem_append.mp hmem with hmem | hmem
      · exact h i type bytes hmem
      · cases List.mem_singleton.mp hmem

theorem value_eq_login {type : PacketTypes} :
    type.value = PacketTypes.pktCsLogin.value ↔ type = .pktCsLogin := by
  cases type <;> decide

/-- What a session has asked for is what the packets it has read ask. -/
theorem requested_eq {w : World} (h : Typed w.trace) (i : SessionId) :
    requested w.trace i = (w.parsedBy i).filterMap loginAsked := by
  rw [requested, World.parsedBy, List.filterMap_filterMap]
  refine List.filterMap_congr (fun n hn => ?_)
  cases n with
  | parsed j type bytes =>
      have htype := h j type bytes hn
      by_cases hlogin : type = .pktCsLogin
      · subst hlogin
        by_cases hj : j = i
        · simp [asksFor, hj, loginAsked, htype]
        · simp [asksFor, hj]
      · have hnot : (PacketHeader.ofBytes bytes).mType ≠ PacketTypes.pktCsLogin.value := by
          rw [htype]
          exact mt value_eq_login.mp hlogin
        have hnone : asksFor i (.parsed j type bytes) = none := by
          unfold asksFor
          split
          next heq => exact absurd (Note.parsed.inj heq).2.1 hlogin
          next => rfl
        rw [hnone]
        by_cases hj : j = i
        · simp [hj, loginAsked, hnot]
        · simp [hj]
  | broadcast j pkt => rfl
  | loginDone j pid => rfl

/-- Who has broadcast in a name has been logged in under it. -/
theorem Spoken.mem_logins {w : World} (h : Spoken w) {i : SessionId} {pkt : OutPacket}
    (hcast : (i, pkt) ∈ w.broadcasts) : pkt.mPlayerId ∈ logins w.trace i := by
  obtain ⟨before, after, htrace, hplayer, -⟩ := h.inItsName_of_mem hcast
  rw [player_playOf] at hplayer
  rw [htrace, logins_append]
  exact List.mem_append_left _ (List.mem_of_getLast? hplayer)

end Server

namespace DummyClient

/-- Under which name a call of `HandleReadPayload` has seen a login's result. -/
def PayloadCall.login (call : PayloadCall) : Option Int32 :=
  call.pktResult.bind fun r =>
    match r.2 with
    | .loginResult q => some q.mPlayerId
    | _ => none

namespace ClientSession

variable {s s' : ClientSession}

theorem login_seen (p : OutPacket) : (seen p).login = p.login := by
  cases p with
  | loginResult q => rfl
  | chatBroadcastResult q => rfl
  | moveBroadcastResult q => rfl

theorem Own.mPlayerId_see (o : Own) (r : Received) : (o.see r).mPlayerId = o.mPlayerId := by
  cases r with
  | loginResult q => rfl
  | chatBroadcastResult q => rfl
  | moveBroadcastResult q =>
      by_cases hq : o.mPlayerId = q.mPlayerId
      · rw [see, if_pos hq]
      · rw [see, if_neg hq]

/-- A dummy stays who it is. -/
theorem mPlayerId_completed {r : AsyncRead} {error : Bool} {data : List UInt8}
    (h : s.completed r error data = some s') : s'.mPlayerId = s.mPlayerId := by
  cases error with
  | true => exact congrArg Own.mPlayerId (completed_error h).2.2
  | false =>
      rw [completed] at h
      split at h
      next =>
        cases hhandler : r.handler with
        | handleReadHeader =>
            rw [hhandler] at h
            cases h
            rfl
        | handleReadPayload =>
            rw [hhandler] at h
            obtain ⟨call, -, hown⟩ := own_handleReadPayload h
            refine (congrArg Own.mPlayerId hown).trans ?_
            cases call.pktResult with
            | none => rfl
            | some result => exact Own.mPlayerId_see _ result.2
      next => cases h

theorem loginAsked_loginRequest (s : ClientSession) :
    loginAsked s.loginRequest = some s.mPlayerId := by
  have hheader : (PacketHeader.ofBytes s.loginRequest).mType = PacketTypes.pktCsLogin.value := by
    rw [loginRequest, Request.ofBytes_header]
  have hbytes : s.loginRequest = PacketHeader.toBytes
      ⟨Int16.ofNat sizeofLoginRequest, PacketTypes.pktCsLogin.value⟩
      ++ (int32Bytes s.mPlayerId ++ []) := by
    rw [List.append_nil, loginRequest]
  have hid : (LoginRequest.ofBytes s.loginRequest).mPlayerId = s.mPlayerId :=
    int32At_of_eq hbytes (PacketHeader.length_toBytes _)
  rw [loginAsked, if_pos hheader, hid]

/-- `OnTick` asks for nothing, and the dummy stays who it is. -/
theorem waited_spec {arith : FloatArith} {rand : Nat → Nat} {sent : Option (List UInt8)}
    (h : s.waited arith rand = some (s', sent)) :
    s'.mPlayerId = s.mPlayerId ∧ sent.toList.filterMap loginAsked = [] := by
  have hnone : ∀ (size : Int16) (type : PacketTypes) (rest : List UInt8),
      type.value ≠ PacketTypes.pktCsLogin.value →
      loginAsked (PacketHeader.toBytes ⟨size, type.value⟩ ++ rest) = none := by
    intro size type rest hne
    refine if_neg ?_
    rw [Request.ofBytes_header]
    exact hne
  rw [waited] at h
  split at h
  next => cases h
  next =>
    rw [onTick] at h
    split at h
    · cases h
      exact ⟨rfl, rfl⟩
    · split at h
      · cases h
        refine ⟨rfl, ?_⟩
        rw [Option.toList_some, chatBroadcastRequest, List.append_assoc]
        simp [hnone _ .pktCsChat _ (by decide)]
      · cases h
        refine ⟨rfl, ?_⟩
        rw [Option.toList_some, TcpClient.moveRequest, List.append_assoc, List.append_assoc]
        simp [hnone _ .pktCsMove _ (by decide)]

end ClientSession
end DummyClient

namespace Crowd

open DummyClient
open Server (logins)

variable {arith : FloatArith} {c c' : Crowd} {i : SessionId}

-- ============================================================================
-- Who the dummies are
-- ============================================================================

/-- Every dummy has asked once, for itself, and no two are one player. -/
structure Named (c : Crowd) : Prop where
  typed : Typed c.server.world.trace
  asked : ∀ i, (c.requests i).filterMap loginAsked
    = if c.connected i then [(c.dummies i).mPlayerId] else []
  within : ∀ i, c.connected i = true → i < c.mTotalDummyCount
  distinct : ∀ i j, i < c.mTotalDummyCount → j < c.mTotalDummyCount →
    (c.dummies i).mPlayerId = (c.dummies j).mPlayerId → i = j

theorem playerId_inj {k l : Nat} (hk : START_PLAYER_ID + k < 2 ^ 31)
    (hl : START_PLAYER_ID + l < 2 ^ 31) (h : playerId k = playerId l) : k = l := by
  have hid := congrArg Int32.toInt h
  rw [playerId, playerId, Int32.toInt_ofNat_of_lt hk, Int32.toInt_ofNat_of_lt hl] at hid
  omega

theorem named_start (h : Start c) : Named c := by
  obtain ⟨⟨⟨tick, answers, players, heq⟩, -⟩, ⟨k, hk, hinj, hdummies⟩, hconnected, hrequests, -⟩
    := h
  have hid : ∀ i, (c.dummies i).mPlayerId = playerId (k i) := by
    intro i
    obtain ⟨mReadBuf, mPosX, mPosY, hdummy⟩ := hdummies i
    rw [hdummy]
    rfl
  refine ⟨?_, fun i => ?_, fun i hi => ?_, fun i j hi hj hsame => ?_⟩
  · rw [heq]
    exact fun i type bytes hmem => absurd hmem List.not_mem_nil
  · rw [hrequests, hconnected]
    rfl
  · rw [hconnected] at hi
    cases hi
  · rw [hid, hid] at hsame
    exact hinj i j hi hj (playerId_inj (hk i) (hk j) hsame)

theorem mPlayerId_put {s : DummyClient.ClientSession} (n : Nat) (sent : List (List UInt8))
    (hid : s.mPlayerId = (c.dummies i).mPlayerId) (j : SessionId) :
    ((c.put i s n sent).dummies j).mPlayerId = (c.dummies j).mPlayerId := by
  by_cases hj : j = i
  · rw [hj, dummies_put_self, hid]
  · rw [dummies_put_of_ne c s n sent hj]

/-- A dummy goes on, and asks for nothing. -/
theorem Named.put (h : Named c) {s : DummyClient.ClientSession} {n : Nat}
    {sent : List (List UInt8)} (hid : s.mPlayerId = (c.dummies i).mPlayerId)
    (hsent : sent.filterMap loginAsked = []) : Named (c.put i s n sent) := by
  refine ⟨h.typed, fun j => ?_, h.within, fun j j' hj hj' hsame => ?_⟩
  · rw [mPlayerId_put _ _ hid]
    refine Eq.trans ?_ (h.asked j)
    by_cases hj : j = i
    · rw [hj, requests_put_self, List.filterMap_append, hsent, List.append_nil]
    · rw [requests_put_of_ne c s n sent hj]
  · rw [mPlayerId_put _ _ hid, mPlayerId_put _ _ hid] at hsame
    exact h.distinct j j' hj hj' hsame

/-- A dummy is connected, and asks. -/
theorem Named.connect (h : Named c) (hconn : c.connected i = false)
    (hi : i < c.mTotalDummyCount) :
    Named { c.put i (c.dummies i).handleConnect 0 [(c.dummies i).loginRequest] with
      connected := fun j => if j = i then true else c.connected j } := by
  have hid : (c.dummies i).handleConnect.mPlayerId = (c.dummies i).mPlayerId := rfl
  refine ⟨h.typed, fun j => ?_, fun j hj => ?_, fun j j' hj hj' hsame => ?_⟩
  · rw [mPlayerId_put _ _ hid]
    show ((c.put i (c.dummies i).handleConnect 0 [(c.dummies i).loginRequest]).requests j).filterMap
        loginAsked = if (if j = i then true else c.connected j) = true then [_] else []
    by_cases hj : j = i
    · have hbefore := h.asked i
      rw [hconn, if_neg Bool.false_ne_true] at hbefore
      rw [hj, requests_put_self, if_pos rfl, if_pos rfl, List.filterMap_append, hbefore]
      simp [ClientSession.loginAsked_loginRequest]
    · rw [requests_put_of_ne _ _ _ _ hj, if_neg hj]
      exact h.asked j
  · by_cases hji : j = i
    · rw [hji]
      exact hi
    · exact h.within j (Eq.trans (if_neg hji).symm hj)
  · rw [mPlayerId_put _ _ hid, mPlayerId_put _ _ hid] at hsame
    exact h.distinct j j' hj hj' hsame

theorem named_step {e : Event} (hfollowed : Followed c) (h : Named c)
    (hstep : c.step arith e = some c') : Named c' := by
  cases step_moves hstep with
  | server e server _ hserver =>
      refine ⟨Server.typed_step h.typed (fun this r bytes hthread hreads => ?_) hserver,
        h.asked, h.within, h.distinct⟩
      have hhears := hfollowed.heard.hears this
      exact (hhears.listens.mem_of_reads hhears.conforming hthread hreads).2
  | connect i hconn hi => exact h.connect hconn hi
  | read i r s _ _ hcompleted =>
      exact h.put (ClientSession.mPlayerId_completed hcompleted) rfl
  | readFails i len r s _ _ hcompleted =>
      exact h.put (ClientSession.mPlayerId_completed hcompleted) rfl
  | timer i rand s sent hwaited =>
      obtain ⟨hid, hsent⟩ := ClientSession.waited_spec hwaited
      exact h.put hid hsent

-- ============================================================================
-- Undisturbed runs
-- ============================================================================

/-- A fair run without I/O errors in which no result goes to a session younger
    than its job. -/
def Undisturbed (c : Crowd) : Event → Prop
  | .server e => Game.Serves c.server e ∧ Server.NoIoErrors c.server e ∧
      Server.DispatchesToOlder c.server e
  | _ => True

theorem fair_of_undisturbed (c : Crowd) (e : Event) (h : Undisturbed c e) : Fair c e := by
  cases e with
  | server e => exact h.1
  | _ => trivial

/-- Only the server's steps change the server, and no step changes who the
    dummies are. -/
theorem step_spec {e : Event} (h : c.step arith e = some c') :
    (c'.mTotalDummyCount = c.mTotalDummyCount ∧
        ∀ i, (c'.dummies i).mPlayerId = (c.dummies i).mPlayerId) ∧
      ((∃ e', e = .server e' ∧ c.server.step e' = some c'.server) ∨ c'.server = c.server) := by
  cases step_moves h with
  | server e server _ hserver => exact ⟨⟨rfl, fun _ => rfl⟩, Or.inl ⟨e, rfl, hserver⟩⟩
  | connect i => exact ⟨⟨rfl, mPlayerId_put 0 [(c.dummies i).loginRequest] rfl⟩, Or.inr rfl⟩
  | read i r s _ _ hcompleted =>
      exact ⟨⟨rfl, mPlayerId_put _ _ (ClientSession.mPlayerId_completed hcompleted)⟩, Or.inr rfl⟩
  | readFails i len r s _ _ hcompleted =>
      exact ⟨⟨rfl, mPlayerId_put _ _ (ClientSession.mPlayerId_completed hcompleted)⟩, Or.inr rfl⟩
  | timer i rand s sent hwaited =>
      exact ⟨⟨rfl, mPlayerId_put _ _ (ClientSession.waited_spec hwaited).1⟩, Or.inr rfl⟩

theorem attentive_server (h : (system arith).ReachableBy Undisturbed c) :
    ∃ db, (Server.systemOn db).ReachableBy Server.Attentive c.server := by
  induction h with
  | @init c h => exact ⟨c.server.players, .init ⟨h.server.1, rfl⟩⟩
  | @step c c' e _ hok hstep ih =>
      obtain ⟨db, hserver⟩ := ih
      refine ⟨db, ?_⟩
      rcases (step_spec hstep).2 with ⟨e, rfl, htaken⟩ | hsame
      · exact hserver.step ⟨hok.2.1, hok.2.2, hok.1.takesUnlisted⟩ htaken
      · rw [hsame]
        exact hserver

/-- What holds in an undisturbed run. -/
structure Settled (c : Crowd) : Prop where
  followed : Followed c
  named : Named c
  logins : ∀ i, logins c.server.world.trace i
    <+: if c.connected i then [(c.dummies i).mPlayerId] else []

theorem settled (h : (system arith).ReachableBy Undisturbed c) : Settled c := by
  have hfollowed := (isInvariant_followed arith).holds (h.mono fair_of_undisturbed)
  have hnamed : Named c := by
    induction h with
    | init h => exact named_start h
    | step hr hok hstep ih =>
        have hbefore := (isInvariant_followed arith).holds (hr.mono fair_of_undisturbed)
        exact named_step hbefore (ih hbefore) hstep
  refine ⟨hfollowed, hnamed, fun i => ?_⟩
  obtain ⟨db, hserver⟩ := attentive_server h
  have hanswered := ((Server.isInvariant_accounted db).holds hserver).answered i
  have hasked : Server.requested c.server.world.trace i
      <+: if c.connected i then [(c.dummies i).mPlayerId] else [] := by
    rw [Server.requested_eq hnamed.typed, ← hnamed.asked i]
    exact (hfollowed.heard.hears i).parsedBy.1.filterMap loginAsked
  have hone : (if c.connected i then [(c.dummies i).mPlayerId] else []).length ≤ 1 := by
    split
    · exact Nat.le_refl 1
    · exact Nat.zero_le 1
  exact hanswered.trans ((hasked.filter _).trans (filter_prefix_of_length_le_one hone _))

-- ============================================================================
-- One login each
-- ============================================================================

namespace Settled

/-- Whoever broadcasts is a dummy's session, and does it in the dummy's name. -/
theorem cast (h : Settled c) {pkt : OutPacket} (hcast : (i, pkt) ∈ c.server.world.broadcasts) :
    c.connected i = true ∧ pkt.mPlayerId = (c.dummies i).mPlayerId := by
  have hspoken := Server.isInvariant_spoken.holds
    (h.followed.heard.orderly.mono fun _ _ hok => hok.namesSomebody)
  have hmem := (h.logins i).subset (hspoken.mem_logins hcast)
  split at hmem
  next hconn => exact ⟨hconn, List.mem_singleton.mp hmem⟩
  next => cases hmem

/-- Who broadcasts in the name of a dummy. -/
theorem sender_iff (h : Settled c) (hi : i < c.mTotalDummyCount) (j : SessionId)
    (pkt : OutPacket) (hcast : (j, pkt) ∈ c.server.world.broadcasts) :
    pkt.mPlayerId = (c.dummies i).mPlayerId ↔ j = i := by
  obtain ⟨hj, hname⟩ := h.cast hcast
  constructor
  · intro hsame
    apply h.named.distinct j i (h.named.within j hj) hi
    rw [← hname, hsame]
  · rintro rfl
    exact hname

/-- No two sessions broadcast in one name. -/
theorem sender_eq (h : Settled c) {j : SessionId} {pkt pkt' : OutPacket}
    (hcast : (i, pkt) ∈ c.server.world.broadcasts) (hcast' : (j, pkt') ∈ c.server.world.broadcasts)
    (hsame : pkt'.mPlayerId = pkt.mPlayerId) : j = i := by
  obtain ⟨hi, hpkt⟩ := h.cast hcast
  exact (h.sender_iff (h.named.within i hi) j pkt' hcast').mp (hsame.trans hpkt)

theorem logins_le (h : Settled c) (i : SessionId) :
    Server.logins c.server.world.trace i <+: [(c.dummies i).mPlayerId] := by
  have hlogins := h.logins i
  split at hlogins
  next => exact hlogins
  next =>
    rw [List.prefix_nil.mp hlogins]
    exact List.nil_prefix

/-- The logins a dummy has been told of. -/
theorem told_le (h : Settled c) (i : SessionId) {id : Int32} {start : CFloat × CFloat}
    {handled rest : List OutPacket}
    (htold : Told c.server i (c.dummies i) (c.arrived i) (c.connected i) id start handled rest) :
    handled.filterMap OutPacket.login <+: [(c.dummies i).mPlayerId] := by
  obtain ⟨since, hserved⟩ := htold.served
  have hall := hserved.told
  rw [List.filterMap_append] at hall
  have hsub := ((List.sublist_append_left _ _).trans hall).trans (h.logins_le i).sublist
  rcases List.sublist_singleton.mp hsub with hnone | hone
  · exact hnone ▸ List.nil_prefix
  · exact hone ▸ List.prefix_rfl

end Settled

/-- Is it undisturbed? -/
def isUndisturbed (c : Crowd) : Event → Bool
  | .server e => isFair c (.server e) && Server.isAttentive c.server e
  | _ => true

theorem undisturbed_of_isUndisturbed (c : Crowd) (e : Event) (h : isUndisturbed c e = true) :
    Undisturbed c e := by
  cases e with
  | server e =>
      rw [isUndisturbed, Bool.and_eq_true] at h
      have hattentive := Server.attentive_of_isAttentive c.server e h.2
      exact ⟨fair_of_isFair c (.server e) h.1, hattentive.noIoErrors, hattentive.toOlder⟩
  | _ => trivial

/-- **One login each.**  In every undisturbed run of the crowd a session is
    logged in once at most, as its dummy's player; the dummy is told of one
    login at most, its own; one wait of its timer is outstanding if it is logged
    on, and otherwise none, so that no wait is ever cancelled; and whatever the
    session broadcasts is in the dummy's name, which is nobody else's. -/
theorem one_login_each (arith : FloatArith) (c : Crowd)
    (h : (system arith).ReachableBy Undisturbed c) (i : SessionId) :
    logins c.server.world.trace i <+: [(c.dummies i).mPlayerId] ∧
      (c.dummies i).payloads.filterMap PayloadCall.login <+: [(c.dummies i).mPlayerId] ∧
      (c.dummies i).timers = (if (c.dummies i).mLogon then 1 else 0) ∧
      ∀ pkt, (i, pkt) ∈ c.server.world.broadcasts →
        pkt.mPlayerId = (c.dummies i).mPlayerId ∧
          ∀ j pkt', (j, pkt') ∈ c.server.world.broadcasts →
            pkt'.mPlayerId = pkt.mPlayerId → j = i := by
  have hsettled := settled h
  obtain ⟨id, start, handled, rest, htold⟩ := hsettled.followed.told i
  have hle := hsettled.told_le i htold
  refine ⟨hsettled.logins_le i, ?_, ?_, fun pkt hcast => ⟨(hsettled.cast hcast).2,
    fun j pkt' hcast' hsame => hsettled.sender_eq hcast hcast' hsame⟩⟩
  · rw [htold.made.payloads, List.filterMap_map]
    have hlogin : PayloadCall.login ∘ ClientSession.seen = OutPacket.login :=
      funext ClientSession.login_seen
    rw [hlogin]
    exact hle
  · have hlogon : (c.dummies i).mLogon = decide (handled.filterMap OutPacket.login ≠ []) :=
      congrArg ClientSession.Own.mLogon htold.made.own
    have htimers : (c.dummies i).timers = (handled.filterMap OutPacket.login).length :=
      congrArg ClientSession.Own.timers htold.made.own
    rw [hlogon, htimers]
    rcases List.sublist_singleton.mp hle.sublist with hnone | hone
    · rw [hnone]
      rfl
    · rw [hone]
      rfl

theorem one_login_each_walk :
    ∃ c, (system Game.fromZero).ReachableBy Undisturbed c ∧
      logins c.server.world.trace 0 = [1001] ∧ (c.dummies 0).mLogon = true ∧
      (c.dummies 0).timers = 1 := by
  have hrun : ((system Game.fromZero).runIf isUndisturbed twoDummies walkEvents).map
      (fun c => (logins c.server.world.trace 0, (c.dummies 0).mLogon)) = some ([1001], true) := by
    decide +kernel
  obtain ⟨c, hc, hall⟩ := Option.map_eq_some_iff.mp hrun
  obtain ⟨hlogins, hlogon⟩ := Prod.mk.inj hall
  have hinit : (system Game.fromZero).ReachableBy Undisturbed twoDummies := .init start_twoDummies
  have hreach := hinit.runIf undisturbed_of_isUndisturbed hc
  have htimers := (one_login_each Game.fromZero c hreach 0).2.2.1
  rw [hlogon, if_pos rfl] at htimers
  exact ⟨c, hreach, hlogins, hlogon, htimers⟩

end Crowd
end EasyGameServer
