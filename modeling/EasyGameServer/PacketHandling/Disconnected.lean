/-
  EasyGameServer.PacketHandling.Disconnected

  Packets behind a disconnect.  When a handler has hung up its session, the
  loop of `OnRead` goes on with what is still buffered: neither the loop nor a
  handler asks `IsConnected`.  `SendRequest` asks, so nothing more is sent or
  broadcast; but a login request pushes its job, and a MOVE moves the session.
-/

import EasyGameServer.World.Profile
import EasyGameServer.PacketHandling.ReadLoop

namespace EasyGameServer

open Lib

namespace World

variable {w w' : World} {this : SessionId}

-- ============================================================================
-- A packet without a connection
-- ============================================================================

theorem put_self (w : World) (this : SessionId) : w.put this (w.sessions this, w.os) = w := by
  unfold put
  congr 1
  funext i
  split
  next h => rw [h]
  next => rfl

/-- Without a connection nothing is relayed. -/
theorem relay_disconnected (h : (w.sessions this).mConnected = false) (pkt : OutPacket) :
    w.relay this pkt = w := by
  have hsend : w.sendRequest this pkt = (false, w) := by
    simp only [sendRequest, ClientSession.sendRequest, h, Bool.false_eq_true, if_false, put_self]
  have hhang : w.disconnect this = w := by
    simp only [disconnect, ClientSession.disconnect, h, Bool.false_eq_true, if_false, put_self]
  have hcast : w.broadcast this pkt = (false, w) := by
    simp only [broadcast, hsend, Bool.false_eq_true, if_false]
  simp only [relay, hcast, Bool.false_eq_true, if_false, hhang]

/-- The packets broadcast so far, with their senders. -/
def broadcasts (w : World) : List (SessionId × OutPacket) :=
  w.trace.filterMap fun
    | .broadcast i pkt => some (i, pkt)
    | _ => none

/-- No effect: no job pushed, the session where it was, nothing in anybody's
    send buffer, nothing broadcast. -/
structure NoEffect (this : SessionId) (w w' : World) : Prop where
  pushed : w'.pushed = w.pushed
  mPosX : (w'.sessions this).mPosX = (w.sessions this).mPosX
  mPosY : (w'.sessions this).mPosY = (w.sessions this).mPosY
  mSendBuffer : ∀ i, (w'.sessions i).mSendBuffer = (w.sessions i).mSendBuffer
  broadcasts : w'.broadcasts = w.broadcasts

/-- A login request, or a MOVE in the player's name to another place. -/
def TakesEffect (pid : Int32) (x y : CFloat) (r : Registered) (bytes : List UInt8) : Prop :=
  r = .login ∨ (r = .move ∧ claimedPlayerId bytes = pid ∧
    ((MoveRequest.ofBytes bytes).mPosX, (MoveRequest.ofBytes bytes).mPosY) ≠ (x, y))

/-- What a disconnected session's packet does. -/
structure Unconnected (w w' : World) (this : SessionId) (r : Registered) (bytes : List UInt8) :
    Prop where
  mConnected : (w'.sessions this).mConnected = false
  mPlayerId : (w'.sessions this).mPlayerId = (w.sessions this).mPlayerId
  noEffect : NoEffect this w w' ↔
    ¬ TakesEffect (w.sessions this).mPlayerId (w.sessions this).mPosX (w.sessions this).mPosY
      r bytes

theorem noEffect_consumed (w : World) (this : SessionId) (type : PacketTypes)
    (bytes : List UInt8) (rest : CircularBuffer) :
    NoEffect this w (w.consumed this type bytes rest) := by
  have hself := sessions_consumed_self w this type bytes rest
  refine ⟨rfl, by rw [hself], by rw [hself], fun i => ?_, ?_⟩
  · by_cases hi : i = this
    · rw [hi, hself]
    · exact congrArg ClientSession.mSendBuffer (sessions_put_of_ne w _ hi)
  · show (w.trace ++ [_]).filterMap _ = _
    rw [List.filterMap_append]
    exact List.append_nil _

theorem unconnected_handler {r : Registered} {bytes : List UInt8} {rest : CircularBuffer}
    (hdisc : (w.sessions this).mConnected = false)
    (hread : (w.sessions this).mRecvBuffer.read r.size = some (bytes, rest))
    (h : r.handler this w = some w') : Unconnected w w' this r bytes := by
  have hself := sessions_consumed_self w this r.type bytes rest
  have hdisc' : ((w.consumed this r.type bytes rest).sessions this).mConnected = false := by
    rw [hself]
    exact hdisc
  have hpid' : ((w.consumed this r.type bytes rest).sessions this).mPlayerId
      = (w.sessions this).mPlayerId := by rw [hself]
  have hnone := noEffect_consumed w this r.type bytes rest
  cases handled_of_read hread h with
  | login hr =>
      refine ⟨hdisc', hpid', fun hno => ?_, fun hnot => absurd (Or.inl hr) hnot⟩
      -- a job more is a job more
      have hlen : w.pushed.length + 1 = w.pushed.length :=
        List.length_append.symm.trans (congrArg List.length hno.pushed)
      exact absurd hlen (Nat.succ_ne_self _)
  | refused hr hpid =>
      refine ⟨hdisc', hpid', fun _ ht => ?_, fun _ => hnone⟩
      rcases ht with hlogin | ⟨-, hclaimed, -⟩
      · exact hr hlogin
      · exact hpid hclaimed
  | chat hr hpid pkt =>
      rw [relay_disconnected hdisc']
      refine ⟨hdisc', hpid', fun _ ht => ?_, fun _ => hnone⟩
      subst hr
      rcases ht with hlogin | ⟨hmove, -⟩
      · cases hlogin
      · cases hmove
  | move hr hpid =>
      subst hr
      have hmoved := sessions_modify_self (w.consumed this (Registered.type .move) bytes rest) this
        (fun s => s.setPosition (MoveRequest.ofBytes bytes).mPosX (MoveRequest.ofBytes bytes).mPosY)
      rw [relay_disconnected (by rw [hmoved]; exact hdisc')]
      refine ⟨by rw [hmoved]; exact hdisc', by rw [hmoved]; exact hpid', ?_, fun hnot => ?_⟩
      · rintro ⟨-, hx, hy, -, -⟩ (hlogin | ⟨-, -, hne⟩)
        · cases hlogin
        · rw [hmoved] at hx hy
          exact hne (Prod.ext hx hy)
      · have hsame : ((MoveRequest.ofBytes bytes).mPosX, (MoveRequest.ofBytes bytes).mPosY)
            = ((w.sessions this).mPosX, (w.sessions this).mPosY) := by
          by_contra hne
          exact hnot (Or.inr ⟨rfl, hpid, hne⟩)
        obtain ⟨hx, hy⟩ := Prod.mk.inj hsame
        refine ⟨rfl, by rw [hmoved]; exact hx, by rw [hmoved]; exact hy, fun i => ?_,
          hnone.broadcasts⟩
        by_cases hi : i = this
        · rw [hi, hmoved]
          exact hnone.mSendBuffer this
        · exact (congrArg ClientSession.mSendBuffer (sessions_put_of_ne _ _ hi)).trans
            (hnone.mSendBuffer i)

-- ============================================================================
-- The rest of the loop
-- ============================================================================

/-- The walk of the handlers through the bytes: each packet is dispatched, is
    all there and does not end the process. -/
inductive ReadsOn (pid : Int32) (bs : List UInt8) : List UInt8 → Prop
  | refl : ReadsOn pid bs bs
  | next {bs' : List UInt8} {r : Registered} (h : ReadsOn pid bs bs') (hd : Dispatched bs')
      (hr : registered? (PacketHeader.ofBytes bs').mType = some r) (hs : r.size ≤ bs'.length)
      (hc : ¬ r.Crashes pid (bs'.take r.size)) : ReadsOn pid bs (bs'.drop r.size)

/-- The next packet is one that takes effect. -/
structure Lands (pid : Int32) (x y : CFloat) (bs : List UInt8) (r : Registered) : Prop where
  dispatched : Dispatched bs
  registered : registered? (PacketHeader.ofBytes bs).mType = some r
  size_le : r.size ≤ bs.length
  takesEffect : TakesEffect pid x y r (bs.take r.size)

/-- No later packet of the loop has an effect. -/
def Unheeded (this : SessionId) (w : World) : Prop :=
  ∀ h h', Heads (onReadBody this) w h → onReadBody this h = .again h' → NoEffect this h h'

/-- A packet that is all there is read. -/
theorem unconnected_read {r : Registered} (hv : (w.recv this).Valid)
    (hdisc : (w.sessions this).mConnected = false)
    (hs : r.size ≤ (w.recv this).contents.length) (h : r.handler this w = some w') :
    (w'.recv this).Valid ∧ (w'.recv this).contents = (w.recv this).contents.drop r.size ∧
      Unconnected w w' this r ((w.recv this).contents.take r.size) := by
  rcases handler_spec hv r with ⟨hlt, -⟩ | ⟨-, -, hnone⟩ | ⟨-, -, w₁, hrun, htook⟩
  · omega
  · cases hnone.symm.trans h
  · cases hrun.symm.trans h
    rw [CircularBuffer.length_contents] at hs
    obtain ⟨rest, hread, -, -, -⟩ := CircularBuffer.read_spec hv hs
    exact ⟨htook.valid, htook.contents, unconnected_handler hdisc hread h⟩

/-- An iteration that goes on leaves everything as it is, or reads a packet. -/
theorem unconnected_onReadBody (hv : (w.recv this).Valid)
    (hdisc : (w.sessions this).mConnected = false) (h : onReadBody this w = .again w') :
    w' = w ∨ ∃ r, Dispatched (w.recv this).contents ∧
      registered? (PacketHeader.ofBytes (w.recv this).contents).mType = some r ∧
      r.size ≤ (w.recv this).contents.length ∧
      ¬ r.Crashes (w.sessions this).mPlayerId ((w.recv this).contents.take r.size) ∧
      (w'.recv this).Valid ∧ (w'.recv this).contents = (w.recv this).contents.drop r.size ∧
      Unconnected w w' this r ((w.recv this).contents.take r.size) := by
  cases readsAgain_of_onReadBody h with
  | hungUp =>
      left
      simp only [disconnect, ClientSession.disconnect, hdisc, Bool.false_eq_true, if_false,
        put_self]
  | short => exact Or.inl rfl
  | read r _ _ hd hr _ hrun =>
      rcases handler_spec hv r with ⟨-, hsame⟩ | ⟨-, -, hnone⟩ | ⟨hs, hc, -⟩
      · cases hsame.symm.trans hrun
        exact Or.inl rfl
      · cases hnone.symm.trans hrun
      · obtain ⟨hv', hcontents, hun⟩ := unconnected_read hv hdisc hs hrun
        exact Or.inr ⟨r, hd, hr, hs, hc, hv', hcontents, hun⟩

/-- And it does go on where there is a packet to read. -/
theorem onReadBody_of_registered {r : Registered} (hv : (w.recv this).Valid)
    (hdisc : (w.sessions this).mConnected = false) (hd : Dispatched (w.recv this).contents)
    (hr : registered? (PacketHeader.ofBytes (w.recv this).contents).mType = some r)
    (hs : r.size ≤ (w.recv this).contents.length)
    (hc : ¬ r.Crashes (w.sessions this).mPlayerId ((w.recv this).contents.take r.size)) :
    ∃ w', onReadBody this w = .again w' ∧ (w'.recv this).Valid ∧
      (w'.recv this).contents = (w.recv this).contents.drop r.size ∧
      Unconnected w w' this r ((w.recv this).contents.take r.size) := by
  rcases onReadBody_cases this w with ⟨hnd, -⟩ | ⟨-, hrun⟩
  · exact absurd hd hnd
  · simp only [handlerTable, hr] at hrun
    rcases hrun with ⟨hnone, -⟩ | ⟨w', hrun, hbody⟩
    · rcases handler_spec hv r with ⟨hlt, -⟩ | ⟨-, hcrash, -⟩ | ⟨-, -, w₁, hsome, -⟩
      · omega
      · exact absurd hcrash hc
      · cases hsome.symm.trans hnone
    · exact ⟨w', hbody, unconnected_read hv hdisc hs hrun⟩

/-- Where the loop has come to, when nothing has had an effect. -/
structure Unmoved (this : SessionId) (w h : World) : Prop where
  valid : (h.recv this).Valid
  mConnected : (h.sessions this).mConnected = false
  mPlayerId : (h.sessions this).mPlayerId = (w.sessions this).mPlayerId
  mPosX : (h.sessions this).mPosX = (w.sessions this).mPosX
  mPosY : (h.sessions this).mPosY = (w.sessions this).mPosY

theorem Unmoved.next {h h' : World} {r : Registered} {bytes : List UInt8}
    (hu : Unmoved this w h) (hv : (h'.recv this).Valid) (hun : Unconnected h h' this r bytes)
    (hno : NoEffect this h h') : Unmoved this w h' :=
  ⟨hv, hun.mConnected, hun.mPlayerId.trans hu.mPlayerId, hno.mPosX.trans hu.mPosX,
    hno.mPosY.trans hu.mPosY⟩

/-- If no later packet has an effect, the loop comes to wherever the walk does. -/
theorem exists_heads_of_readsOn {bs : List UInt8} (hv : (w.recv this).Valid)
    (hdisc : (w.sessions this).mConnected = false) (hun : Unheeded this w)
    (hwalk : ReadsOn (w.sessions this).mPlayerId (w.recv this).contents bs) :
    ∃ h, Heads (onReadBody this) w h ∧ (h.recv this).contents = bs ∧ Unmoved this w h := by
  induction hwalk with
  | refl => exact ⟨w, .entry w, rfl, hv, hdisc, rfl, rfl, rfl⟩
  | next _ hd hr hs hc ih =>
      obtain ⟨h, hhead, rfl, hu⟩ := ih
      rw [← hu.mPlayerId] at hc
      obtain ⟨h', hbody, hv', hcontents, hun'⟩ :=
        onReadBody_of_registered hu.valid hu.mConnected hd hr hs hc
      exact ⟨h', .next hhead hbody, hcontents, hu.next hv' hun' (hun h h' hhead hbody)⟩

/-- If the walk comes to no packet that takes effect, neither does the loop. -/
theorem readsOn_of_heads {h : World} (hv : (w.recv this).Valid)
    (hdisc : (w.sessions this).mConnected = false)
    (hno : ¬ ∃ bs r, ReadsOn (w.sessions this).mPlayerId (w.recv this).contents bs ∧
      Lands (w.sessions this).mPlayerId (w.sessions this).mPosX (w.sessions this).mPosY bs r)
    (hhead : Heads (onReadBody this) w h) :
    ReadsOn (w.sessions this).mPlayerId (w.recv this).contents (h.recv this).contents ∧
      Unmoved this w h := by
  induction hhead with
  | entry => exact ⟨.refl, hv, hdisc, rfl, rfl, rfl⟩
  | next _ hbody ih =>
      obtain ⟨hwalk, hu⟩ := ih
      rcases unconnected_onReadBody hu.valid hu.mConnected hbody with
        rfl | ⟨r, hd, hr, hs, hc, hv', hcontents, hun⟩
      · exact ⟨hwalk, hu⟩
      · have hquiet := hun.noEffect.mpr (fun ht => by
          rw [hu.mPlayerId, hu.mPosX, hu.mPosY] at ht
          exact hno ⟨_, r, hwalk, hd, hr, hs, ht⟩)
        rw [hu.mPlayerId] at hc
        rw [hcontents]
        exact ⟨hwalk.next hd hr hs hc, hu.next hv' hun hquiet⟩

theorem unheeded_iff (hv : (w.recv this).Valid) (hdisc : (w.sessions this).mConnected = false) :
    Unheeded this w ↔
      ¬ ∃ bs r, ReadsOn (w.sessions this).mPlayerId (w.recv this).contents bs ∧
        Lands (w.sessions this).mPlayerId (w.sessions this).mPosX (w.sessions this).mPosY bs r := by
  constructor
  · rintro hun ⟨bs, r, hwalk, hd, hr, hs, ht⟩
    obtain ⟨h, hhead, rfl, hu⟩ := exists_heads_of_readsOn hv hdisc hun hwalk
    have hc : ¬ r.Crashes (h.sessions this).mPlayerId ((h.recv this).contents.take r.size) := by
      rintro ⟨rfl, -⟩
      rcases ht with hlogin | ⟨hmove, -⟩
      · cases hlogin
      · cases hmove
    obtain ⟨h', hbody, -, -, hun'⟩ := onReadBody_of_registered hu.valid hu.mConnected hd hr hs hc
    rw [← hu.mPlayerId, ← hu.mPosX, ← hu.mPosY] at ht
    exact hun'.noEffect.mp (hun h h' hhead hbody) ht
  · intro hno h h' hhead hbody
    obtain ⟨hwalk, hu⟩ := readsOn_of_heads hv hdisc hno hhead
    rcases unconnected_onReadBody hu.valid hu.mConnected hbody with
      rfl | ⟨r, hd, hr, hs, -, -, -, hun⟩
    · exact ⟨rfl, rfl, rfl, fun _ => rfl, rfl⟩
    · refine hun.noEffect.mpr (fun ht => ?_)
      rw [hu.mPlayerId, hu.mPosX, hu.mPosY] at ht
      exact hno ⟨_, r, hwalk, hd, hr, hs, ht⟩

theorem valid_of_heads {h : World} (hhead : Heads (onReadBody this) w h)
    (hv : (w.recv this).Valid) : (h.recv this).Valid := by
  induction hhead with
  | entry => exact hv
  | next _ hbody ih =>
      rcases onReadBody_spec ih with ⟨-, heq | heq⟩ | ⟨heq, -⟩ | ⟨w₁, heq, hrecv, -⟩
          | ⟨w₁, r, heq, -, -, -, -, htook⟩
      · exact absurd (heq.symm.trans hbody) (by simp)
      · exact absurd (heq.symm.trans hbody) (by simp)
      · exact absurd (heq.symm.trans hbody) (by simp)
      · cases heq.symm.trans hbody
        rw [hrecv]
        exact ih
      · cases heq.symm.trans hbody
        exact htook.valid

/-- **After a disconnect.**  For every world, session and number of received
    bytes: when the session has been disconnected somewhere in the loop of
    `OnRead`, no later packet of the loop has an effect if and only if the walk
    through the bytes still buffered comes to no login request and to no MOVE
    of the session's player to another place. -/
theorem disconnected_unheeded_iff (w : World) (this : SessionId) (len : Nat) (h : World)
    (hv : ((w.commitRecv this len).recv this).Valid)
    (hhead : Heads (onReadBody this) (w.commitRecv this len) h)
    (hdisc : (h.sessions this).mConnected = false) :
    Unheeded this h ↔
      ¬ ∃ bs r, ReadsOn (h.sessions this).mPlayerId (h.recv this).contents bs ∧
        Lands (h.sessions this).mPlayerId (h.sessions this).mPosX (h.sessions this).mPosY bs r :=
  unheeded_iff (valid_of_heads hhead hv) hdisc

end World
end EasyGameServer
