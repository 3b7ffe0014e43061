/-
  EasyGameServer.World.Releasing

  How sessions give back what they hold.  Only `Disconnect` calls
  `closesocket`, on the session's own socket and where it ends the connection;
  and nothing is posted or scheduled for a session without one.  So whatever
  the client thread does, who loses the connection loses the socket with it,
  and from then on the reference count only falls.  `Releases` says so, and
  composes.
-/

import EasyGameServer.World.Profile

namespace EasyGameServer

open Lib

-- ============================================================================
-- One session
-- ============================================================================

namespace ClientSession

/-- The connection and the socket stay, or both go; without a connection
    nothing is counted. -/
structure Releases (s : ClientSession) (os : Os) (r : ClientSession × Os) : Prop where
  mSocket : r.1.mSocket = s.mSocket
  opened : (r.1.mConnected = s.mConnected ∧ r.2.opened = os.opened) ∨
    (r.1.mConnected = false ∧ r.2.opened = os.opened.erase s.mSocket)
  mRefCount : s.mConnected = false → r.1.mRefCount ≤ s.mRefCount

variable {s s' : ClientSession} {os os' : Os}

/-- What has happened before has not counted up. -/
theorem Releases.after {r : ClientSession × Os} (h : s'.Releases os' r)
    (hsock : s'.mSocket = s.mSocket) (hconn : s'.mConnected = s.mConnected)
    (href : s'.mRefCount ≤ s.mRefCount) (hopened : os'.opened = os.opened) : s.Releases os r where
  mSocket := h.mSocket.trans hsock
  opened := by
    rw [← hsock, ← hconn, ← hopened]
    exact h.opened
  mRefCount hc := Int.le_trans (h.mRefCount (hconn.trans hc)) href

/-- Storing what keeps the connection. -/
theorem releases_keep {r : ClientSession × Os} (hsock : r.1.mSocket = s.mSocket)
    (hconn : r.1.mConnected = s.mConnected) (href : s.mConnected = false →
      r.1.mRefCount ≤ s.mRefCount) (hopened : r.2.opened = os.opened) : s.Releases os r :=
  ⟨hsock, Or.inl ⟨hconn, hopened⟩, href⟩

theorem releases_refl (s : ClientSession) (os : Os) : s.Releases os (s, os) :=
  releases_keep rfl rfl (fun _ => Int.le_refl _) rfl

theorem releases_disconnect (s : ClientSession) (os : Os) : s.Releases os (s.disconnect os) := by
  rcases s.disconnect_cases os with ⟨k, heq⟩ | ⟨-, k, heq⟩
  · rw [heq]
    exact releases_keep rfl rfl (fun _ => Int.le_refl _) rfl
  · rw [heq]
    exact ⟨rfl, Or.inr ⟨rfl, rfl⟩, fun _ => Int.le_refl _⟩

theorem releases_sendRequest (s : ClientSession) (pkt : OutPacket) (os : Os) :
    s.Releases os (s.sendRequest pkt os).2 := by
  rcases s.sendRequest_cases pkt os with ⟨-, -, heq⟩ | ⟨-, -, heq⟩ | ⟨-, heq⟩
  · rw [heq]
    exact releases_keep rfl rfl (fun _ => Int.le_refl _) rfl
  · rw [heq]
    exact (releases_disconnect _ os).after rfl rfl (Int.le_refl _) rfl
  · rw [heq]
    exact releases_refl s os

theorem releases_postRecv (s : ClientSession) (this : SessionId) (os : Os) :
    s.Releases os (s.postRecv this os).2 := by
  rcases s.postRecv_cases this os with ⟨-, heq⟩ | ⟨hconn, k, heq⟩ | ⟨-, k, heq⟩
  · rw [heq]
    exact releases_refl s os
  · rw [heq]
    exact releases_keep rfl rfl (fun hc => absurd (hconn.symm.trans hc) (by decide)) rfl
  · rw [heq]
    exact releases_keep rfl rfl (fun _ => Int.le_refl _) rfl

theorem releases_flushClientSend (s : ClientSession) (this : SessionId) (os : Os) :
    s.Releases os (s.flushClientSend this os) := by
  rcases s.flushClientSend_cases this os with ⟨-, heq⟩ | ⟨hconn, -, k, heq⟩ | ⟨-, -, k, heq⟩
  · rw [heq]
    exact releases_refl s os
  · rw [heq]
    exact releases_keep rfl rfl (fun hc => absurd (hconn.symm.trans hc) (by decide)) rfl
  · rw [heq]
    exact (releases_disconnect s _).after rfl rfl (Int.le_refl _) rfl

theorem decRefCount_le (s : ClientSession) : s.decRefCount.mRefCount ≤ s.mRefCount :=
  Int.sub_le_self _ (by decide)

theorem releases_sendCompletion (s : ClientSession) (dwError : Bool) (cbTransferred : Nat)
    (os : Os) : s.Releases os (s.sendCompletion dwError cbTransferred os) := by
  rcases s.sendCompletion_cases dwError cbTransferred os with heq | heq | heq
  · rw [heq]
    exact releases_keep rfl rfl (fun _ => s.decRefCount_le) rfl
  · rw [heq]
    exact (releases_disconnect s.decRefCount os).after rfl rfl s.decRefCount_le rfl
  · rw [heq]
    exact releases_keep rfl rfl (fun _ => s.decRefCount_le) rfl

end ClientSession

-- ============================================================================
-- All sessions
-- ============================================================================

namespace World

/-- No socket is closed twice, who loses the connection has no socket open any
    more, and who has none counts nothing. -/
structure Releases (w w' : World) : Prop where
  opened : w'.os.opened.Sublist w.os.opened
  mSocket : ∀ i, (w'.sessions i).mSocket = (w.sessions i).mSocket
  mConnected : ∀ i, (w.sessions i).mConnected = false → (w'.sessions i).mConnected = false
  closed : w.os.opened.Nodup → ∀ i, (w.sessions i).mConnected = true →
    (w'.sessions i).mConnected = false → (w.sessions i).mSocket ∉ w'.os.opened
  mRefCount : ∀ i, (w.sessions i).mConnected = false →
    (w'.sessions i).mRefCount ≤ (w.sessions i).mRefCount

variable {w w' w'' : World} {this : SessionId}

theorem Releases.of_eq (hos : w'.os = w.os) (hsessions : w'.sessions = w.sessions) :
    Releases w w' where
  opened := by rw [hos]
  mSocket i := by rw [hsessions]
  mConnected i hc := by rwa [hsessions]
  closed _ i hc hd := by
    rw [hsessions, hc] at hd
    cases hd
  mRefCount i _ := Int.le_of_eq (by rw [hsessions])

theorem Releases.refl (w : World) : Releases w w := .of_eq rfl rfl

theorem Releases.trans (h : Releases w w') (h' : Releases w' w'') : Releases w w'' where
  opened := h'.opened.trans h.opened
  mSocket i := (h'.mSocket i).trans (h.mSocket i)
  mConnected i hc := h'.mConnected i (h.mConnected i hc)
  closed hnodup i hc hd hmem := by
    cases hc' : (w'.sessions i).mConnected with
    | true =>
        refine h'.closed (hnodup.sublist h.opened) i hc' hd ?_
        rw [h.mSocket]
        exact hmem
    | false => exact h.closed hnodup i hc hc' (h'.opened.subset hmem)
  mRefCount i hc := Int.le_trans (h'.mRefCount i (h.mConnected i hc)) (h.mRefCount i hc)

theorem releases_foldl {α : Type _} {f : World → α → World} (h : ∀ w a, Releases w (f w a))
    (as : List α) (w : World) : Releases w (as.foldl f w) := by
  induction as generalizing w with
  | nil => exact .refl w
  | cons a as ih => exact (h w a).trans (ih (f w a))

theorem releases_put {r : ClientSession × Os} (h : (w.sessions this).Releases w.os r) :
    Releases w (w.put this r) := by
  have hos : (w.put this r).os = r.2 := rfl
  refine ⟨?_, fun i => ?_, fun i hc => ?_, fun hnodup i hc hd => ?_, fun i hc => ?_⟩
  · rw [hos]
    rcases h.opened with ⟨-, heq⟩ | ⟨-, heq⟩
    · rw [heq]
    · rw [heq]
      exact List.erase_sublist
  · by_cases hi : i = this
    · rw [hi, sessions_put_self]
      exact h.mSocket
    · rw [sessions_put_of_ne w r hi]
  · by_cases hi : i = this
    · rw [hi] at hc
      rw [hi, sessions_put_self]
      rcases h.opened with ⟨hsame, -⟩ | ⟨hd, -⟩
      · rw [hsame, hc]
      · exact hd
    · rw [sessions_put_of_ne w r hi, hc]
  · by_cases hi : i = this
    · rw [hi, sessions_put_self] at hd
      rw [hi] at hc
      rcases h.opened with ⟨hsame, -⟩ | ⟨-, heq⟩
      · rw [hsame, hc] at hd
        cases hd
      · rw [hos, heq, hi]
        exact hnodup.not_mem_erase
    · rw [sessions_put_of_ne w r hi, hc] at hd
      cases hd
  · by_cases hi : i = this
    · rw [hi] at hc
      rw [hi, sessions_put_self]
      exact h.mRefCount hc
    · exact Int.le_of_eq (by rw [sessions_put_of_ne w r hi])

/-- A store that keeps connection and count. -/
theorem releases_modify (w : World) (this : SessionId) {f : ClientSession → ClientSession}
    (hsock : (f (w.sessions this)).mSocket = (w.sessions this).mSocket)
    (hconn : (f (w.sessions this)).mConnected = (w.sessions this).mConnected)
    (href : (w.sessions this).mConnected = false →
      (f (w.sessions this)).mRefCount ≤ (w.sessions this).mRefCount) :
    Releases w (w.modify this f) :=
  releases_put (ClientSession.releases_keep hsock hconn href rfl)

theorem releases_disconnect (w : World) (this : SessionId) : Releases w (w.disconnect this) :=
  releases_put (ClientSession.releases_disconnect _ _)

theorem releases_sendRequest (w : World) (this : SessionId) (pkt : OutPacket) :
    Releases w (w.sendRequest this pkt).2 :=
  releases_put (ClientSession.releases_sendRequest _ _ _)

theorem releases_broadcast (w : World) (this : SessionId) (pkt : OutPacket) :
    Releases w (w.broadcast this pkt).2 := by
  have hsend := releases_sendRequest w this pkt
  unfold broadcast
  extract_lets r
  split
  · split
    · have hnote : Releases r.2 (r.2.note (.broadcast this pkt)) := .of_eq rfl rfl
      refine (hsend.trans hnote).trans (releases_foldl (fun w it => ?_) _ _)
      split
      · exact .refl w
      · exact releases_sendRequest w it.2 pkt
    · exact hsend
  · exact hsend

theorem releases_relay (w : World) (this : SessionId) (pkt : OutPacket) :
    Releases w (w.relay this pkt) := by
  unfold relay
  split
  · exact releases_broadcast w this pkt
  · exact (releases_broadcast w this pkt).trans (releases_disconnect _ this)

theorem releases_flushClientSend (w : World) : Releases w w.flushClientSend :=
  releases_foldl (fun _ _ => releases_put (ClientSession.releases_flushClientSend _ _ _)) _ w

theorem releases_recvExit (w : World) (this : SessionId) : Releases w (w.recvExit this) := by
  have hpost : Releases w (w.put this ((w.sessions this).postRecv this w.os).2) :=
    releases_put (ClientSession.releases_postRecv _ _ _)
  unfold recvExit
  extract_lets r
  split
  · exact hpost
  · exact hpost.trans (releases_disconnect _ this)

theorem releases_recvCompletion (w : World) (post : RecvPost) (dwError : Bool)
    (data : List UInt8) : Releases w (w.recvCompletion post dwError data).2 := by
  have hcounted : (((w.sessions post.owner).arrive post.buf data).decRefCount).mRefCount ≤
      (w.sessions post.owner).mRefCount := ClientSession.decRefCount_le _
  rcases recvCompletion_cases w post dwError data with ⟨-, heq⟩ | ⟨-, -, heq⟩ | ⟨-, -, heq⟩
  · rw [heq]
    exact releases_put (ClientSession.releases_keep rfl rfl (fun _ => hcounted) rfl)
  · rw [heq]
    exact (releases_put (ClientSession.releases_keep rfl rfl (fun _ => hcounted) rfl)).trans
      (releases_disconnect _ _)
  · rw [heq]
    exact releases_put (ClientSession.releases_keep rfl rfl (fun _ => hcounted) rfl)

theorem releases_sendCompletion (w : World) (post : SendPost) (dwError : Bool)
    (cbTransferred : Nat) : Releases w (w.sendCompletion post dwError cbTransferred) :=
  releases_put ((ClientSession.releases_sendCompletion _ _ _ _).after rfl rfl (Int.le_refl _) rfl)

/-- Tasks are queued for connected sessions. -/
theorem releases_callFuncAfter (w : World) (h : (w.sessions this).mConnected = true)
    (after : UInt32) (memfunc : SessionTask) : Releases w (w.callFuncAfter after this memfunc) := by
  have hcount : Releases w (w.modify this ClientSession.incRefCount) :=
    releases_modify w this rfl rfl (fun hc => absurd (h.symm.trans hc) (by decide))
  exact hcount.trans (.of_eq rfl rfl)

theorem releases_onTick (w : World) (this : SessionId) : Releases w (w.onTick this) := by
  unfold onTick
  split
  next hconn => exact releases_callFuncAfter w hconn _ _
  next => exact .refl w

theorem releases_onDbUpdate (w : World) (this : SessionId) : Releases w (w.onDbUpdate this) := by
  unfold onDbUpdate
  split
  next hconn =>
    let pushed := w.pushDatabaseJobRequest this (updateJob (w.sessions this))
    have hpush : Releases w pushed := .of_eq rfl rfl
    exact hpush.trans (releases_callFuncAfter pushed hconn _ _)
  next => exact .refl w

theorem releases_doTask (h : w.doTask = some w') : Releases w w' := by
  obtain ⟨e, -, rfl⟩ := doTask_eq h
  have htask : Releases w (w.runTask e) := by
    unfold runTask
    split
    · exact releases_onTick w _
    · exact releases_onDbUpdate w _
  have hcount : Releases (w.runTask e) ((w.runTask e).modify e.mOwner ClientSession.decRefCount) :=
    releases_modify _ e.mOwner rfl rfl (fun _ => ClientSession.decRefCount_le _)
  exact (htask.trans hcount).trans (.of_eq rfl rfl)

theorem releases_loginDone (w : World) (this : SessionId) (pid : Int32) (x y : CFloat)
    (name : CString maxNameLen) : Releases w (w.loginDone this pid x y name) := by
  unfold loginDone
  extract_lets w₁ outPacket w₂ w₃
  have hplayer : Releases w w₁ :=
    Releases.trans (.of_eq rfl rfl : Releases w (w.note (.loginDone this pid)))
      (releases_modify _ this rfl rfl (fun _ => Int.le_refl _))
  have hsent : Releases w₁ w₂ := releases_sendRequest w₁ this _
  have hlogon : Releases w₂ w₃ := releases_modify w₂ this rfl rfl (fun _ => Int.le_refl _)
  exact (((hplayer.trans hsent).trans hlogon).trans (releases_onTick w₃ this)).trans
    (releases_onDbUpdate _ this)

theorem releases_dispatchDatabaseJobResult {job : DatabaseJobContext}
    (h : w.dispatchDatabaseJobResult job = some w') : Releases w w' := by
  rcases dispatchDatabaseJobResult_cases h with rfl | ⟨client, login, -, -, -, -, -, rfl⟩
  · exact .refl _
  · exact releases_loginDone w client _ _ _ _

theorem releases_onReadBody (h : onReadBody this w = .again w') : Releases w w' := by
  cases readsAgain_of_onReadBody h with
  | hungUp => exact releases_disconnect w this
  | short => exact .refl _
  | read r bytes rest _ _ hread hrun =>
      have hstored : Releases w (w.modify this (fun s => { s with mRecvBuffer := rest })) :=
        releases_modify w this rfl rfl (fun _ => Int.le_refl _)
      have hconsumed : Releases w (w.consumed this r.type bytes rest) :=
        hstored.trans (.of_eq rfl rfl)
      cases handled_of_read hread hrun with
      | login hr => exact hconsumed.trans (.of_eq rfl rfl)
      | refused hr hpid => exact hconsumed
      | chat hr hpid pkt => exact hconsumed.trans (releases_relay _ this _)
      | move hr hpid =>
          exact (hconsumed.trans (releases_modify _ this rfl rfl
            (fun _ => Int.le_refl _))).trans (releases_relay _ this _)

theorem releases_onReadBody_leave (h : onReadBody this w = .leave (some w')) :
    Releases w w' := by
  rcases eq_of_onReadBody_leave h with rfl | rfl
  · exact .refl _
  · exact releases_disconnect w this

end World
end EasyGameServer
