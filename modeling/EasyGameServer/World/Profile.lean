/-
  EasyGameServer.World.Profile

  Who a session is in the game: its player, its place, its name and whether it
  is logged on.  Only three things change that.  A session starts as nobody at
  the origin; the MOVE handler puts it where the packet says, if the packet
  names the session's player; and `LoginDone` makes it a player.  Everything
  else is `Steady`.
-/

import EasyGameServer.World.Evolves
import EasyGameServer.World.Garbage

namespace EasyGameServer

open Lib

/-- The members of a session the game is about. -/
structure Profile where
  mPlayerId : Int32
  mPosX : CFloat
  mPosY : CFloat
  mPlayerName : CString maxNameLen
  mLogon : Bool

namespace ClientSession

def profile (s : ClientSession) : Profile where
  mPlayerId := s.mPlayerId
  mPosX := s.mPosX
  mPosY := s.mPosY
  mPlayerName := s.mPlayerName
  mLogon := s.mLogon

@[simp] theorem profile_disconnect (s : ClientSession) (os : Os) :
    (s.disconnect os).1.profile = s.profile := by
  rcases s.disconnect_cases os with ⟨k, heq⟩ | ⟨-, k, heq⟩
  · rw [heq]
  · rw [heq]
    rfl

@[simp] theorem profile_sendRequest (s : ClientSession) (pkt : OutPacket) (os : Os) :
    (s.sendRequest pkt os).2.1.profile = s.profile := by
  rcases s.sendRequest_cases pkt os with ⟨-, -, heq⟩ | ⟨-, -, heq⟩ | ⟨-, heq⟩
  · rw [heq]
    rfl
  · rw [heq, profile_disconnect]
    rfl
  · rw [heq]

@[simp] theorem profile_flushClientSend (s : ClientSession) (this : SessionId) (os : Os) :
    (s.flushClientSend this os).1.profile = s.profile := by
  rcases s.flushClientSend_cases this os with ⟨-, heq⟩ | ⟨-, -, k, heq⟩ | ⟨-, -, k, heq⟩
  · rw [heq]
  · rw [heq]
    rfl
  · rw [heq, profile_disconnect]

@[simp] theorem profile_sendCompletion (s : ClientSession) (dwError : Bool) (cbTransferred : Nat)
    (os : Os) : (s.sendCompletion dwError cbTransferred os).1.profile = s.profile := by
  rcases s.sendCompletion_cases dwError cbTransferred os with heq | heq | heq
  · rw [heq]
    rfl
  · rw [heq, profile_disconnect]
    rfl
  · rw [heq]
    rfl

end ClientSession

namespace World

-- ============================================================================
-- What changes no profile
-- ============================================================================

/-- Nobody's profile changes, and the history stays as it is. -/
structure Steady (w w' : World) : Prop where
  profile : ∀ i, (w'.sessions i).profile = (w.sessions i).profile
  trace : w'.trace = w.trace

variable {w w' w'' : World} {this : SessionId}

namespace Steady

theorem of_eq (hsessions : w'.sessions = w.sessions) (htrace : w'.trace = w.trace) :
    Steady w w' :=
  ⟨fun i => by rw [hsessions], htrace⟩

theorem refl (w : World) : Steady w w := of_eq rfl rfl

theorem trans (h : Steady w w') (h' : Steady w' w'') : Steady w w'' :=
  ⟨fun i => (h'.profile i).trans (h.profile i), h'.trace.trans h.trace⟩

end Steady

theorem steady_put {r : ClientSession × Os} (h : r.1.profile = (w.sessions this).profile) :
    Steady w (w.put this r) := by
  refine ⟨fun i => ?_, rfl⟩
  by_cases hi : i = this
  · rw [hi, sessions_put_self]
    exact h
  · rw [sessions_put_of_ne w r hi]

theorem steady_foldl {α : Type _} {f : World → α → World} (h : ∀ w a, Steady w (f w a))
    (as : List α) (w : World) : Steady w (as.foldl f w) := by
  induction as generalizing w with
  | nil => exact .refl w
  | cons a as ih => exact (h w a).trans (ih (f w a))

theorem steady_disconnect (w : World) (this : SessionId) : Steady w (w.disconnect this) :=
  steady_put (ClientSession.profile_disconnect _ _)

theorem steady_sendRequest (w : World) (this : SessionId) (pkt : OutPacket) :
    Steady w (w.sendRequest this pkt).2 :=
  steady_put (ClientSession.profile_sendRequest _ _ _)

theorem steady_broadcastPacket (w : World) (sender : SessionId) (pkt : OutPacket) :
    Steady w (w.broadcastPacket sender pkt) := by
  refine steady_foldl (fun w it => ?_) _ w
  by_cases h : sender = it.2
  · rw [if_pos h]
    exact .refl w
  · rw [if_neg h]
    exact steady_sendRequest w it.2 pkt

theorem steady_flushClientSend (w : World) : Steady w w.flushClientSend :=
  steady_foldl (fun _ _ => steady_put (ClientSession.profile_flushClientSend _ _ _)) _ w

theorem steady_recvExit (w : World) (this : SessionId) : Steady w (w.recvExit this) := by
  have hput : (((w.sessions this).postRecv this w.os).2.1).profile = (w.sessions this).profile := by
    rcases (w.sessions this).postRecv_cases this w.os with ⟨-, heq⟩ | ⟨-, k, heq⟩ | ⟨-, k, heq⟩
    · rw [heq]
    · rw [heq]
      rfl
    · rw [heq]
      rfl
  by_cases hposted : ((w.sessions this).postRecv this w.os).1 = true
  · simp only [recvExit, hposted, if_true]
    exact steady_put hput
  · simp only [recvExit, hposted]
    exact (steady_put hput).trans (steady_disconnect _ this)

theorem steady_recvCompletion (w : World) (post : RecvPost) (dwError : Bool)
    (data : List UInt8) : Steady w (w.recvCompletion post dwError data).2 := by
  rcases recvCompletion_cases w post dwError data with ⟨-, heq⟩ | ⟨-, -, heq⟩ | ⟨-, -, heq⟩
  · rw [heq]
    exact steady_put rfl
  · rw [heq]
    exact (steady_put rfl).trans (steady_disconnect _ _)
  · rw [heq]
    exact steady_put rfl

theorem steady_sendCompletion (w : World) (post : SendPost) (dwError : Bool)
    (cbTransferred : Nat) : Steady w (w.sendCompletion post dwError cbTransferred) :=
  steady_put (ClientSession.profile_sendCompletion _ _ _ _)

theorem steady_callFuncAfter (w : World) (after : UInt32) (this : SessionId)
    (memfunc : SessionTask) : Steady w (w.callFuncAfter after this memfunc) := by
  have hcount : Steady w (w.modify this ClientSession.incRefCount) := steady_put rfl
  exact ⟨hcount.profile, hcount.trace⟩

theorem steady_runTask (w : World) (e : JobElement SessionId SessionTask) :
    Steady w (w.runTask e) := by
  rcases runTask_cases w e with heq | ⟨after, heq⟩ | ⟨after, heq⟩
  · rw [heq]
    exact .refl w
  · rw [heq]
    exact steady_callFuncAfter w after _ _
  · rw [heq]
    have hpush : Steady w (w.pushDatabaseJobRequest e.mOwner (updateJob (w.sessions e.mOwner))) :=
      .of_eq rfl rfl
    exact hpush.trans (steady_callFuncAfter _ after _ _)

theorem steady_doTask (h : w.doTask = some w') : Steady w w' := by
  obtain ⟨e, -, rfl⟩ := doTask_eq h
  have hcount : Steady (w.runTask e) ((w.runTask e).modify e.mOwner ClientSession.decRefCount) :=
    steady_put rfl
  exact (steady_runTask w e).trans ⟨hcount.profile, hcount.trace⟩

theorem steady_onPeriodWork (w : World) (currTick : UInt32) :
    Steady w (w.onPeriodWork currTick) := by
  unfold onPeriodWork
  split
  · have heq := foldl_deleteClient
      ((w.mClientList.toList.map Prod.snd).filter (fun i => isGarbage (w.sessions i))) w
    have hsessions := congrArg sessions heq
    have htrace := congrArg trace heq
    exact .of_eq hsessions htrace
  · exact .refl w

theorem steady_onReadBody_leave (h : onReadBody this w = .leave (some w')) : Steady w w' := by
  rcases eq_of_onReadBody_leave h with rfl | rfl
  · exact .refl _
  · exact steady_disconnect w this

-- ============================================================================
-- Packets
-- ============================================================================

/-- What a relay leaves: the profiles, and the broadcast in the history if the
    sender's own copy was accepted. -/
structure Relayed (w w' : World) (this : SessionId) (pkt : OutPacket) : Prop where
  profile : ∀ i, (w'.sessions i).profile = (w.sessions i).profile
  trace : w'.trace = w.trace ∨ w'.trace = w.trace ++ [.broadcast this pkt]

theorem relayed_broadcast (w : World) (this : SessionId) (pkt : OutPacket) :
    Relayed w (w.broadcast this pkt).2 this pkt := by
  have hsend := steady_sendRequest w this pkt
  by_cases hok : (w.sendRequest this pkt).1 = true
  · by_cases hconn : ((w.sendRequest this pkt).2.sessions this).mConnected = true
    · simp only [broadcast, hok, hconn, if_true]
      have hall := steady_broadcastPacket ((w.sendRequest this pkt).2.note (.broadcast this pkt))
        this pkt
      refine ⟨fun i => (hall.profile i).trans (hsend.profile i), Or.inr ?_⟩
      rw [hall.trace, ← hsend.trace]
      rfl
    · simp only [broadcast, hok, hconn, if_true]
      exact ⟨hsend.profile, Or.inl hsend.trace⟩
  · simp only [broadcast, hok]
    exact ⟨hsend.profile, Or.inl hsend.trace⟩

theorem relayed_relay (w : World) (this : SessionId) (pkt : OutPacket) :
    Relayed w (w.relay this pkt) this pkt := by
  have hcast := relayed_broadcast w this pkt
  unfold relay
  split
  · exact hcast
  · have hdisc := steady_disconnect (w.broadcast this pkt).2 this
    refine ⟨fun i => (hdisc.profile i).trans (hcast.profile i), ?_⟩
    rw [hdisc.trace]
    exact hcast.trace

/-- `mPlayerId` of a request: the first member of each of them. -/
def claimedPlayerId (bytes : List UInt8) : Int32 := int32At bytes 4

/-- The CHAT handler relays the text up to its terminator. -/
theorem chat_of_read {bytes : List UInt8} {rest : CircularBuffer}
    (hread : (w.sessions this).mRecvBuffer.read (Registered.size .chat) = some (bytes, rest))
    (hpid : claimedPlayerId bytes = (w.sessions this).mPlayerId)
    (h : Registered.handler .chat this w = some w') :
    ∃ pkt : ChatBroadcastResult, pkt.mPlayerId = claimedPlayerId bytes ∧
      pkt.mChat.text = (ChatBroadcastRequest.ofBytes bytes).mChat.bytes.takeWhile (· ≠ 0) ∧
      w' = (w.consumed this .pktCsChat bytes rest).relay this (.chatBroadcastResult pkt) := by
  have hrun : Registered.handler .chat this w = _ := withPacket_of_some hread _ _
  have hif : ¬ (ChatBroadcastRequest.ofBytes bytes).mPlayerId
      ≠ ((w.consumed this .pktCsChat bytes rest).sessions this).mPlayerId := by
    rw [sessions_consumed_self]
    exact not_not.mpr hpid
  rw [hrun] at h
  replace h := (if_neg hif).symm.trans h
  split at h
  next => cases h
  next chat hcopy =>
    cases h
    exact ⟨_, rfl, text_strcpyS hcopy, rfl⟩

/-- A handler that returns has read its packet; then it pushes a load job, or
    refuses the packet because of the player it names, or relays it. -/
inductive Handled (w : World) (this : SessionId) (r : Registered) (bytes : List UInt8)
    (rest : CircularBuffer) : World → Prop
  | login (hr : r = .login) : Handled w this r bytes rest
      ((w.consumed this r.type bytes rest).pushDatabaseJobRequest this
        (loadJob (w.sessions this).mSocket (.ofBytes bytes)))
  | refused (hr : r ≠ .login) (hpid : claimedPlayerId bytes ≠ (w.sessions this).mPlayerId) :
      Handled w this r bytes rest (w.consumed this r.type bytes rest)
  | chat (hr : r = .chat) (hpid : claimedPlayerId bytes = (w.sessions this).mPlayerId)
      (pkt : ChatBroadcastResult) (hpkt : pkt.mPlayerId = claimedPlayerId bytes) :
      Handled w this r bytes rest
        ((w.consumed this r.type bytes rest).relay this (.chatBroadcastResult pkt))
  | move (hr : r = .move) (hpid : claimedPlayerId bytes = (w.sessions this).mPlayerId) :
      Handled w this r bytes rest
        (((w.consumed this r.type bytes rest).modify this (fun s =>
            s.setPosition (MoveRequest.ofBytes bytes).mPosX
              (MoveRequest.ofBytes bytes).mPosY)).relay
          this (.moveBroadcastResult ⟨claimedPlayerId bytes, (MoveRequest.ofBytes bytes).mPosX,
            (MoveRequest.ofBytes bytes).mPosY⟩))

theorem handled_of_read {r : Registered} {bytes : List UInt8} {rest : CircularBuffer}
    (hread : (w.sessions this).mRecvBuffer.read r.size = some (bytes, rest))
    (h : r.handler this w = some w') : Handled w this r bytes rest w' := by
  cases r with
  | login =>
      have hrun : Registered.handler .login this w = _ := withPacket_of_some hread _ _
      have hsock : ((w.consumed this .pktCsLogin bytes rest).sessions this).mSocket
          = (w.sessions this).mSocket := by rw [sessions_consumed_self]
      rw [hrun, hsock] at h
      cases h
      exact .login rfl
  | chat =>
      by_cases hpid : claimedPlayerId bytes = (w.sessions this).mPlayerId
      · obtain ⟨pkt, hid, -, rfl⟩ := chat_of_read hread hpid h
        exact .chat rfl hpid pkt hid
      · have hif : (ChatBroadcastRequest.ofBytes bytes).mPlayerId
            ≠ ((w.consumed this .pktCsChat bytes rest).sessions this).mPlayerId := by
          rw [sessions_consumed_self]
          exact hpid
        have hrun : Registered.handler .chat this w = _ := withPacket_of_some hread _ _
        rw [hrun] at h
        replace h := (if_pos hif).symm.trans h
        cases h
        exact .refused (by decide) hpid
  | move =>
      have hrun : Registered.handler .move this w = _ := withPacket_of_some hread _ _
      rw [hrun] at h
      by_cases hpid : claimedPlayerId bytes = (w.sessions this).mPlayerId
      · have hif : ¬ (MoveRequest.ofBytes bytes).mPlayerId
            ≠ ((w.consumed this .pktCsMove bytes rest).sessions this).mPlayerId := by
          rw [sessions_consumed_self]
          exact not_not.mpr hpid
        replace h := (if_neg hif).symm.trans h
        cases h
        exact .move rfl hpid
      · have hif : (MoveRequest.ofBytes bytes).mPlayerId
            ≠ ((w.consumed this .pktCsMove bytes rest).sessions this).mPlayerId := by
          rw [sessions_consumed_self]
          exact hpid
        replace h := (if_pos hif).symm.trans h
        cases h
        exact .refused (by decide) hpid

/-- What a handler does with the packet it reads.  The session moves if the
    packet is a MOVE in the name of its player; nobody else changes; and what
    is broadcast carries the player's id, which the packet has claimed. -/
structure Heard (w w' : World) (this : SessionId) (r : Registered) (bytes : List UInt8) :
    Prop where
  profile : ∀ i, (w'.sessions i).profile =
    if i = this ∧ r = .move ∧ claimedPlayerId bytes = (w.sessions this).mPlayerId then
      { (w.sessions this).profile with
        mPosX := (MoveRequest.ofBytes bytes).mPosX
        mPosY := (MoveRequest.ofBytes bytes).mPosY }
    else (w.sessions i).profile
  trace : ∃ ns, w'.trace = w.trace ++ .parsed this r.type bytes :: ns ∧
    ∀ n ∈ ns, r ≠ .login ∧ claimedPlayerId bytes = (w.sessions this).mPlayerId ∧
      ∃ pkt, n = .broadcast this pkt ∧ pkt.mPlayerId = (w.sessions this).mPlayerId

namespace Heard

variable {r : Registered} {bytes : List UInt8}

theorem mPlayerId (h : Heard w w' this r bytes) (i : SessionId) :
    (w'.sessions i).mPlayerId = (w.sessions i).mPlayerId := by
  have hid := congrArg Profile.mPlayerId (h.profile i)
  split at hid
  next hmoved =>
    obtain ⟨rfl, -⟩ := hmoved
    exact hid
  next => exact hid

theorem mLogon (h : Heard w w' this r bytes) (i : SessionId) :
    (w'.sessions i).mLogon = (w.sessions i).mLogon := by
  have hlogon := congrArg Profile.mLogon (h.profile i)
  split at hlogon
  next hmoved =>
    obtain ⟨rfl, -⟩ := hmoved
    exact hlogon
  next => exact hlogon

end Heard

theorem profile_consumed (w : World) (this : SessionId) (type : PacketTypes)
    (bytes : List UInt8) (rest : CircularBuffer) (i : SessionId) :
    ((w.consumed this type bytes rest).sessions i).profile = (w.sessions i).profile := by
  have hput : Steady w (w.modify this (fun s => { s with mRecvBuffer := rest })) :=
    steady_put rfl
  exact hput.profile i

/-- A handler that relays nothing. -/
theorem heard_ignored {r : Registered} {bytes : List UInt8} {rest : CircularBuffer}
    (h : ¬ (r = .move ∧ claimedPlayerId bytes = (w.sessions this).mPlayerId)) :
    Heard w (w.consumed this r.type bytes rest) this r bytes := by
  refine ⟨fun i => ?_, [], rfl, nofun⟩
  rw [if_neg (fun hc => h hc.2), profile_consumed]

theorem heard_handler {r : Registered} {bytes : List UInt8} {rest : CircularBuffer}
    (hread : (w.sessions this).mRecvBuffer.read r.size = some (bytes, rest))
    (h : r.handler this w = some w') : Heard w w' this r bytes := by
  cases handled_of_read hread h with
  | login hr =>
      subst hr
      have hnone : Heard w (w.consumed this .pktCsLogin bytes rest) this .login bytes :=
        heard_ignored (r := .login) (fun hc => absurd hc.1 (by decide))
      exact ⟨hnone.profile, hnone.trace⟩
  | refused _ hpid => exact heard_ignored (fun hc => hpid hc.2)
  | chat hr hpid pkt hpkt =>
      subst hr
      have hrelay := relayed_relay (w.consumed this .pktCsChat bytes rest) this
        (.chatBroadcastResult pkt)
      refine ⟨fun i => ?_, ?_⟩
      · rw [if_neg (fun hc => absurd hc.2.1 (by decide))]
        exact (hrelay.profile i).trans (profile_consumed w this _ bytes rest i)
      · rcases hrelay.trace with htrace | htrace
        · exact ⟨[], htrace, nofun⟩
        · refine ⟨_, htrace.trans (List.append_assoc ..), fun n hn => ?_⟩
          rw [List.mem_singleton.mp hn]
          exact ⟨by decide, hpid, _, rfl, hpkt.trans hpid⟩
  | move hr hpid =>
      subst hr
      have hrelay := relayed_relay
        ((w.consumed this .pktCsMove bytes rest).modify this (fun s =>
          s.setPosition (MoveRequest.ofBytes bytes).mPosX (MoveRequest.ofBytes bytes).mPosY))
        this (.moveBroadcastResult ⟨claimedPlayerId bytes, (MoveRequest.ofBytes bytes).mPosX,
          (MoveRequest.ofBytes bytes).mPosY⟩)
      refine ⟨fun i => (hrelay.profile i).trans ?_, ?_⟩
      · by_cases hi : i = this
        · rw [if_pos ⟨hi, rfl, hpid⟩, hi, sessions_modify_self, sessions_consumed_self]
          rfl
        · rw [if_neg (fun hc => hi hc.1), modify, sessions_put_of_ne _ _ hi, profile_consumed]
      · rcases hrelay.trace with htrace | htrace
        · exact ⟨[], htrace, nofun⟩
        · refine ⟨_, htrace.trans (List.append_assoc ..), fun n hn => ?_⟩
          rw [List.mem_singleton.mp hn]
          exact ⟨by decide, hpid, _, rfl, hpid⟩

/-- `OnRead` goes on with a handler, which reads these bytes. -/
structure Reads (w : World) (this : SessionId) (r : Registered) (bytes : List UInt8) : Prop where
  dispatched : Dispatched (w.sessions this).mRecvBuffer.contents
  registered : registered? (PacketHeader.ofBytes (w.sessions this).mRecvBuffer.contents).mType
    = some r
  read : ∃ rest, (w.sessions this).mRecvBuffer.read r.size = some (bytes, rest)

/-- An iteration of `OnRead` that goes on has hung up at most, or a handler has
    read a packet. -/
theorem heard_onReadBody (h : onReadBody this w = .again w') :
    Steady w w' ∨ ∃ r bytes, Reads w this r bytes ∧ Heard w w' this r bytes := by
  cases readsAgain_of_onReadBody h with
  | hungUp => exact Or.inl (steady_disconnect w this)
  | short => exact Or.inl (.refl w)
  | read r bytes rest hd hr hread hrun =>
      exact Or.inr ⟨r, bytes, ⟨hd, hr, rest, hread⟩, heard_handler hread hrun⟩

-- ============================================================================
-- Logins
-- ============================================================================

/-- What `LoginDone` does: the session is the player, where the result says. -/
structure LoggedIn (w w' : World) (this : SessionId) (pid : Int32) (x y : CFloat)
    (name : CString maxNameLen) : Prop where
  profile : ∀ i, (w'.sessions i).profile =
    if i = this then ⟨pid, x, y, (w.sessions this).mPlayerName.copy name, true⟩
    else (w.sessions i).profile
  trace : w'.trace = w.trace ++ [.loginDone this pid]

theorem steady_onTick (w : World) (this : SessionId) : Steady w (w.onTick this) := by
  unfold onTick
  split
  · exact steady_callFuncAfter w _ this _
  · exact .refl w

theorem steady_onDbUpdate (w : World) (this : SessionId) : Steady w (w.onDbUpdate this) := by
  unfold onDbUpdate
  split
  · have hpush : Steady w (w.pushDatabaseJobRequest this (updateJob (w.sessions this))) :=
      .of_eq rfl rfl
    exact hpush.trans (steady_callFuncAfter _ _ this _)
  · exact .refl w

theorem loggedIn_loginDone (w : World) (this : SessionId) (pid : Int32) (x y : CFloat)
    (name : CString maxNameLen) :
    LoggedIn w (w.loginDone this pid x y name) this pid x y name := by
  unfold loginDone
  extract_lets w₁ outPacket w₂ w₃
  have htick := steady_onTick w₃ this
  have hupdate := steady_onDbUpdate (w₃.onTick this) this
  have hsend := steady_sendRequest w₁ this (.loginResult outPacket)
  refine ⟨fun i => (hupdate.profile i).trans ((htick.profile i).trans ?_), ?_⟩
  · by_cases hi : i = this
    · have hmade := hsend.profile this
      rw [sessions_modify_self] at hmade
      rw [if_pos hi, hi, sessions_modify_self]
      exact congrArg (fun p : Profile => { p with mLogon := true }) hmade
    · have hmade : w₁.sessions i = w.sessions i := sessions_put_of_ne _ _ hi
      have hlogon : w₃.sessions i = w₂.sessions i := sessions_put_of_ne _ _ hi
      rw [if_neg hi, hlogon, ← hmade]
      exact hsend.profile i
  · exact hupdate.trace.trans (htick.trace.trans hsend.trace)

theorem loggedIn_of_eq {pid : Int32} {x y : CFloat} {name : CString maxNameLen}
    (h : w' = w.loginDone this pid x y name) : LoggedIn w w' this pid x y name := by
  rw [h]
  exact loggedIn_loginDone w this pid x y name

end World
end EasyGameServer
