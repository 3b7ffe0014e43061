/-
  EasyGameServer.Server.Receiving

  The receive chain.  A session's next receive is posted when its last one has
  been dealt with, and only then; the chain ends when the session is hung up
  instead.  But `Disconnect` gives up when the linger option cannot be set, and
  then leaves a session that is connected and receives nothing any more.  In
  every run in which it does not give up where a chain ends, every connected
  session has exactly one receive outstanding.
-/

import EasyGameServer.Server.Registration
import EasyGameServer.Server.LoginRouting

namespace EasyGameServer

open Lib

namespace World

variable {w w' : World} {this : SessionId}

-- ============================================================================
-- What posts no receive
-- ============================================================================

theorem recvs_flushClientSend (w : World) : w.flushClientSend.os.recvs = w.os.recvs := by
  unfold flushClientSend
  generalize w.mClientList.toList = its
  induction its generalizing w with
  | nil => rfl
  | cons it its ih =>
      rw [List.foldl_cons, ih]
      show ((w.sessions it.2).flushClientSend it.2 w.os).2.recvs = _
      rcases (w.sessions it.2).flushClientSend_cases it.2 w.os with
        ⟨-, heq⟩ | ⟨-, -, k, heq⟩ | ⟨-, -, k, heq⟩
      · rw [heq]
      · rw [heq]
      · rw [heq, (ClientSession.fades_disconnect _ _).recvs]

theorem recvs_sendCompletion (w : World) (post : SendPost) (dwError : Bool)
    (cbTransferred : Nat) :
    (w.sendCompletion post dwError cbTransferred).os.recvs = w.os.recvs := by
  show ((w.sessions post.owner).sendCompletion dwError cbTransferred _).2.recvs = _
  rcases (w.sessions post.owner).sendCompletion_cases dwError cbTransferred
      { w.os with sends := w.os.sends.erase post } with heq | heq | heq
  · rw [heq]
  · rw [heq, (ClientSession.fades_disconnect _ _).recvs]
  · rw [heq]

theorem recvs_onReadBody (h : onReadBody this w = .again w') : w'.os.recvs = w.os.recvs := by
  cases consumes_of_onReadBody h with
  | calm hcalm => exact hcalm.recvs
  | login => rfl
  | other _ _ _ _ hcalm => exact hcalm.recvs

theorem recvs_doTask (h : w.doTask = some w') : w'.os.recvs = w.os.recvs := by
  obtain ⟨e, -, rfl⟩ := doTask_eq h
  show (w.runTask e).os.recvs = _
  rcases runTask_cases w e with heq | ⟨after, heq⟩ | ⟨after, heq⟩
  · rw [heq]
  · rw [heq]
    rfl
  · rw [heq]
    rfl

theorem recvs_onPeriodWork (w : World) (currTick : UInt32) :
    (w.onPeriodWork currTick).os.recvs = w.os.recvs := by
  unfold onPeriodWork
  split
  · have heq := foldl_deleteClient
      ((w.mClientList.toList.map Prod.snd).filter (fun i => isGarbage (w.sessions i))) w
    have hos := congrArg os heq
    exact congrArg Os.recvs hos
  · rfl

theorem recvs_onTick (w : World) (this : SessionId) : (w.onTick this).os.recvs = w.os.recvs := by
  unfold onTick
  split
  · rfl
  · rfl

theorem recvs_onDbUpdate (w : World) (this : SessionId) :
    (w.onDbUpdate this).os.recvs = w.os.recvs := by
  unfold onDbUpdate
  split
  · rfl
  · rfl

theorem recvs_dispatchDatabaseJobResult {job : DatabaseJobContext}
    (h : w.dispatchDatabaseJobResult job = some w') : w'.os.recvs = w.os.recvs := by
  rcases dispatchDatabaseJobResult_cases h with rfl | ⟨client, login, -, -, -, -, -, rfl⟩
  · rfl
  · unfold loginDone
    rw [recvs_onDbUpdate, recvs_onTick]
    exact (calm_sendRequest _ client _).recvs

-- ============================================================================
-- The end of a receive
-- ============================================================================

theorem recvs_recvCompletion (w : World) (post : RecvPost) (dwError : Bool)
    (data : List UInt8) :
    (w.recvCompletion post dwError data).2.os.recvs = w.os.recvs.erase post := by
  rcases recvCompletion_cases w post dwError data with ⟨-, heq⟩ | ⟨-, -, heq⟩ | ⟨-, -, heq⟩
  · rw [heq]
    rfl
  · rw [heq]
    exact (calm_disconnect _ post.owner).recvs
  · rw [heq]
    rfl

/-- `Disconnect` hangs up when the linger option can be set. -/
theorem mConnected_disconnect (w : World) (this : SessionId)
    (h : w.os.answers w.os.asked = true) :
    ((w.disconnect this).sessions this).mConnected = false := by
  rw [disconnect, sessions_put_self, ClientSession.disconnect]
  by_cases hc : (w.sessions this).mConnected = true
  · have hask : w.os.ask.1 = true := h
    rw [if_pos hc, if_pos hask]
  · rw [if_neg hc]
    exact eq_false_of_ne_true hc

/-- A completion that does not go on to `OnRead` leaves the session hung up, if
    the linger option can be set. -/
theorem mConnected_recvCompletion {post : RecvPost} {dwError : Bool} {data : List UInt8}
    (hhangs : (w.sessions post.owner).mConnected = true → dwError = true ∨ data = [] →
      w.os.answers w.os.asked = true)
    (hleaves : (w.recvCompletion post dwError data).1 = false) :
    ((w.recvCompletion post dwError data).2.sessions post.owner).mConnected = false := by
  rcases recvCompletion_cases w post dwError data with
    ⟨hc, heq⟩ | ⟨hc, herr, heq⟩ | ⟨-, -, heq⟩
  · rw [heq, sessions_put_self]
    exact hc
  · rw [heq]
    exact mConnected_disconnect _ _ (hhangs hc herr)
  · rw [heq] at hleaves
    cases hleaves

/-- If the session is connected, its next receive can be posted, or else it can
    be hung up: the second call is the one that sets the linger option. -/
def GoesOnOrHangsUp (w : World) (this : SessionId) : Prop :=
  (w.sessions this).mConnected = true →
    w.os.answers w.os.asked = true ∨ w.os.answers (w.os.asked + 1) = true

theorem recvExit_of_posted {r : ClientSession × Os}
    (h : (w.sessions this).postRecv this w.os = (true, r)) : w.recvExit this = w.put this r := by
  simp only [recvExit, h, if_true]

theorem recvExit_of_not_posted {r : ClientSession × Os}
    (h : (w.sessions this).postRecv this w.os = (false, r)) :
    w.recvExit this = w.put this (r.1.disconnect r.2) := by
  have hexit : w.recvExit this = (w.put this r).disconnect this := by
    simp only [recvExit, h]
    rfl
  rw [hexit, disconnect, put_put, sessions_put_self]
  rfl

/-- After `OnRead` a receive is posted, or the session is not connected. -/
theorem recvExit_spec (h : w.GoesOnOrHangsUp this) :
    (((w.recvExit this).sessions this).mConnected = true ∧ (w.sessions this).mConnected = true ∧
        ∃ post : RecvPost, post.owner = this ∧
          (w.recvExit this).os.recvs = w.os.recvs ++ [post]) ∨
      (((w.recvExit this).sessions this).mConnected = false ∧
        (w.recvExit this).os.recvs = w.os.recvs) := by
  cases hc : (w.sessions this).mConnected with
  | false =>
      have hpost : (w.sessions this).postRecv this w.os = (false, w.sessions this, w.os) := by
        simp [ClientSession.postRecv, hc]
      have hhang : (w.sessions this).disconnect w.os = (w.sessions this, w.os) := by
        simp [ClientSession.disconnect, hc]
      rw [recvExit_of_not_posted hpost, hhang, sessions_put_self]
      exact Or.inr ⟨hc, rfl⟩
  | true =>
      let s := { w.sessions this with
        mRecvBuffer := (w.sessions this).mRecvBuffer.getFreeSpaceSize.2 }
      cases hposted : w.os.answers w.os.asked with
      | true =>
          have hpost : (w.sessions this).postRecv this w.os = (true, s.incRefCount,
              { w.os with
                asked := w.os.asked + 1
                recvs := w.os.recvs ++ [⟨this, s.mRecvBuffer.getBuffer,
                  (w.sessions this).mRecvBuffer.getFreeSpaceSize.1⟩] }) := by
            simp [ClientSession.postRecv, hc, Os.wsaRecv, Os.ask, hposted, s]
          rw [recvExit_of_posted hpost, sessions_put_self]
          exact Or.inl ⟨hc, rfl, _, rfl, rfl⟩
      | false =>
          have hhangs := (h hc).resolve_left (by simp [hposted])
          have hpost : (w.sessions this).postRecv this w.os =
              (false, s, { w.os with asked := w.os.asked + 1 }) := by
            simp [ClientSession.postRecv, hc, Os.wsaRecv, Os.ask, hposted, s]
          have hhang : s.disconnect { w.os with asked := w.os.asked + 1 } =
              ({ s with mConnected := false },
                { w.os with
                  asked := w.os.asked + 2
                  opened := w.os.opened.erase s.mSocket }) := by
            simp [ClientSession.disconnect, show s.mConnected = true from hc, Os.ask, hhangs,
              Os.closesocket]
          rw [recvExit_of_not_posted hpost, hhang, sessions_put_self]
          exact Or.inr ⟨rfl, rfl⟩

/-- The receives outstanding for a session. -/
def receives (w : World) (this : SessionId) : Nat :=
  w.os.recvs.countP (fun p => p.owner = this)

theorem receives_append {post : RecvPost} (h : w'.os.recvs = w.os.recvs ++ [post])
    (i : SessionId) :
    w'.receives i = w.receives i + if post.owner = i then 1 else 0 := by
  simp only [receives, h, List.countP_append, List.countP_singleton, decide_eq_true_eq]

theorem receives_erase {post : RecvPost} (hmem : post ∈ w.os.recvs)
    (h : w'.os.recvs = w.os.recvs.erase post) (i : SessionId) :
    w.receives i = w'.receives i + if post.owner = i then 1 else 0 := by
  have hperm := (List.perm_cons_erase hmem).countP_eq (fun p => decide (p.owner = i))
  rw [receives, receives, h, hperm, List.countP_cons]
  simp only [decide_eq_true_eq]

theorem receives_congr (h : w'.os.recvs = w.os.recvs) (i : SessionId) :
    w'.receives i = w.receives i := by
  rw [receives, receives, h]

end World

namespace Server

variable {st st' : Server}

-- ============================================================================
-- One receive for each
-- ============================================================================

/-- Where a receive chain ends, `Disconnect` does not give up. -/
def EndsChains (st : Server) : Event → Prop
  | .takeAccepted sendMem recvMem => ∀ sock q, st.pendingAcceptList.consume = some (sock, q) →
      (st.world.connectClient sock sendMem recvMem).GoesOnOrHangsUp st.world.next
  | .recvCompletion post dwError data => (st.world.sessions post.owner).mConnected = true →
      dwError = true ∨ data = [] → st.world.os.answers st.world.os.asked = true
  | .read => ∀ this w, st.clientThread = .reading this →
      World.onReadBody this st.world = .leave (some w) → w.GoesOnOrHangsUp this
  | _ => True

/-- A connected session has one receive outstanding, and none while it is being
    read. -/
def Receiving (st : Server) : Prop :=
  ∀ i, (st.world.sessions i).mConnected = true →
    st.world.receives i = if st.clientThread = .reading i then 0 else 1

/-- No step connects a session but the one it creates. -/
theorem mConnected_step {a : Event} (h : st.step a = some st') (hkeyed : st.world.Keyed)
    {i : SessionId} (hc : (st'.world.sessions i).mConnected = true) :
    (st.world.sessions i).mConnected = true ∨
      (i = st.world.next ∧ ∃ sendMem recvMem, a = .takeAccepted sendMem recvMem) := by
  cases step_change h with
  | accept sock _ hworld _ _ =>
      rw [hworld] at hc
      exact Or.inl hc
  | take sendMem recvMem sock _ hev _ _ =>
      have hc' := hev.mConnected i hc
      rw [sessions_connectClient] at hc'
      by_cases hi : i = st.world.next
      · exact Or.inr ⟨hi, sendMem, recvMem, rfl⟩
      · rw [if_neg hi] at hc'
        exact Or.inl hc'
  | period currTick hworld _ _ =>
      rw [hworld] at hc
      obtain ⟨ds, hcoll | heq⟩ := World.onPeriodWork_spec hkeyed currTick
      · rw [hcoll.sessions] at hc
        exact Or.inl hc
      · rw [heq] at hc
        exact Or.inl hc
  | evolve _ hev _ _ => exact Or.inl (hev.mConnected i hc)

theorem receiving_of_same {a : Event} (h : Receiving st) (hkeyed : st.world.Keyed)
    (hstep : st.step a = some st') (ha : ∀ sendMem recvMem, a ≠ .takeAccepted sendMem recvMem)
    (hrecvs : st'.world.os.recvs = st.world.os.recvs)
    (hthread : ∀ i, st'.clientThread = .reading i ↔ st.clientThread = .reading i) :
    Receiving st' := by
  intro i hc
  rcases mConnected_step hstep hkeyed hc with hc | ⟨-, sendMem, recvMem, heq⟩
  · rw [World.receives_congr hrecvs, h i hc]
    simp only [hthread]
  · exact absurd heq (ha sendMem recvMem)

/-- A new session's first receive. -/
theorem Receiving.take {sendMem recvMem : Nat → UInt8} {sock : SOCKET}
    {q : ProducerConsumerQueue SOCKET pendingAcceptListSize} (h : Receiving st)
    (hsound : Sound st) (hthread : st.clientThread = .loopTop)
    (hgoes : (st.world.connectClient sock sendMem recvMem).GoesOnOrHangsUp st.world.next)
    (hst' : st' = { st with
      world := st.world.acceptClient sock sendMem recvMem
      pendingAcceptList := q }) : Receiving st' := by
  have hworld : st'.world
      = (st.world.connectClient sock sendMem recvMem).recvExit st.world.next := by
    rw [hst', ← World.acceptClient_eq]
  have hthread' : st'.clientThread = .loopTop := by
    rw [hst']
    exact hthread
  intro i hc
  rw [hthread', if_neg (by simp)]
  rw [hworld] at hc ⊢
  have hold : ∀ i, (st.world.connectClient sock sendMem recvMem).receives i
      = st.world.receives i := fun i => rfl
  by_cases hi : i = st.world.next
  · -- nothing was outstanding for a session that was not there
    have hnone : st.world.receives i = 0 := by
      by_contra hne
      have hpos : 0 < st.world.held i := by
        rw [World.held, Os.posted]
        have := Nat.pos_of_ne_zero hne
        rw [World.receives] at this
        omega
      rw [hi] at hpos
      exact Nat.lt_irrefl _ (hsound.held _ hpos).1
    rcases World.recvExit_spec hgoes with ⟨-, -, post, howner, hrecvs⟩ | ⟨hdisc, -⟩
    · rw [World.receives_append hrecvs, hold, hnone, if_pos (howner.trans hi.symm)]
    · rw [hi, hdisc] at hc
      cases hc
  · have hc' := (World.evolves_recvExit _ st.world.next).mConnected i hc
    rw [sessions_connectClient, if_neg hi] at hc'
    have hone := h i hc'
    rw [hthread, if_neg (by simp)] at hone
    rcases World.recvExit_spec hgoes with ⟨-, -, post, howner, hrecvs⟩ | ⟨-, hrecvs⟩
    · rw [World.receives_append hrecvs, hold, hone, if_neg]
      rw [howner]
      exact fun heq => hi heq.symm
    · rw [World.receives_congr hrecvs, hold, hone]

/-- A receive completes: it is dealt with next, or the session is hung up. -/
theorem Receiving.complete {post : RecvPost} {dwError : Bool} {data : List UInt8} {apcRan : Bool}
    (h : Receiving st) (hthread : st.clientThread = .sleeping apcRan)
    (hpost : post ∈ st.world.os.recvs)
    (hhangs : (st.world.sessions post.owner).mConnected = true → dwError = true ∨ data = [] →
      st.world.os.answers st.world.os.asked = true)
    (hst' : st' = { st with
      world := (st.world.recvCompletion post dwError data).2
      clientThread := if (st.world.recvCompletion post dwError data).1 then
        .reading post.owner else .sleeping true }) : Receiving st' := by
  have hbefore : ∀ i, (st.world.sessions i).mConnected = true → st.world.receives i = 1 := by
    intro i hc
    have hone := h i hc
    rwa [hthread, if_neg (by simp)] at hone
  have hworld : st'.world = (st.world.recvCompletion post dwError data).2 := by rw [hst']
  have hthread' : st'.clientThread = if (st.world.recvCompletion post dwError data).1 then
      .reading post.owner else .sleeping true := by rw [hst']
  intro i hc
  have hc' : (st.world.sessions i).mConnected = true := by
    rw [hworld] at hc
    exact (World.evolves_recvCompletion (P := fun _ => True) hpost dwError data).mConnected i hc
  have hone := hbefore i hc'
  have herase := World.receives_erase hpost
    (World.recvs_recvCompletion st.world post dwError data) i
  rw [hone, ← hworld] at herase
  rw [hthread']
  by_cases hi : i = post.owner
  · rw [if_pos hi.symm] at herase
    cases hgoes : (st.world.recvCompletion post dwError data).1 with
    | true =>
        rw [if_pos rfl, hi, if_pos rfl]
        rw [hi] at herase
        omega
    | false =>
        have hdisc := World.mConnected_recvCompletion hhangs hgoes
        rw [← hworld, ← hi] at hdisc
        cases hdisc.symm.trans hc
  · rw [if_neg (fun heq => hi heq.symm)] at herase
    rw [if_neg]
    · exact herase.symm
    · split
      · exact fun heq => hi (ClientThread.reading.inj heq).symm
      · nofun

/-- What is posted, or not, once a session has been read. -/
theorem Receiving.leave {this : SessionId} {w : World} (h : Receiving st)
    (hthread : st.clientThread = .reading this)
    (hbody : World.onReadBody this st.world = .leave (some w)) (hgoes : w.GoesOnOrHangsUp this)
    (hst' : st' = { st with world := w.recvExit this, clientThread := .sleeping true }) :
    Receiving st' := by
  have hcalm := World.onReadBody_leave hbody
  have hworld : st'.world = w.recvExit this := by rw [hst']
  have hthread' : st'.clientThread = .sleeping true := by rw [hst']
  intro i hc
  rw [hworld] at hc ⊢
  have hc' : (st.world.sessions i).mConnected = true :=
    (hcalm.sessions i).mConnected ((World.evolves_recvExit w this).mConnected i hc)
  have hbefore := h i hc'
  rw [← World.receives_congr hcalm.recvs, hthread] at hbefore
  rw [hthread', if_neg (by simp)]
  by_cases hi : this = i
  · rw [if_pos (by rw [hi])] at hbefore
    rcases World.recvExit_spec hgoes with ⟨-, -, post, howner, hrecvs⟩ | ⟨hdisc, -⟩
    · rw [World.receives_append hrecvs, hbefore, if_pos (howner.trans hi)]
    · rw [hi] at hdisc hc
      cases hdisc.symm.trans hc
  · rw [if_neg (fun heq => hi (ClientThread.reading.inj heq))] at hbefore
    rcases World.recvExit_spec hgoes with ⟨-, -, post, howner, hrecvs⟩ | ⟨-, hrecvs⟩
    · rw [World.receives_append hrecvs, hbefore, if_neg (fun heq => hi (howner.symm.trans heq))]
    · rw [World.receives_congr hrecvs, hbefore]

theorem Receiving.step {a : Event} (h : Receiving st) (hsound : Sound st)
    (hok : EndsChains st a) (hstep : st.step a = some st') : Receiving st' := by
  have hsame := @receiving_of_same st st' a h hsound.keyed hstep
  cases step_moves hstep with
  | takeAccepted sendMem recvMem sock q _ hthread hq =>
      exact h.take hsound hthread (hok sock q hq) rfl
  | flush _ hthread =>
      exact hsame nofun (World.recvs_flushClientSend _) (fun i => by simp [hthread])
  | wake _ hthread => exact hsame nofun rfl (fun i => by simp [hthread])
  | recvCompletion post dwError data apcRan _ hthread hpost =>
      exact h.complete hthread hpost hok rfl
  | readAgain this w _ _ hbody =>
      exact hsame nofun (World.recvs_onReadBody hbody) (fun i => Iff.rfl)
  | readLeave this w _ hthread hbody =>
      exact h.leave hthread hbody (hok this w hthread hbody) rfl
  | sendCompletion post dwError cbTransferred apcRan _ hthread =>
      exact hsame nofun (World.recvs_sendCompletion _ _ _ _) (fun i => by simp [hthread])
  | timer tick apcRan _ hthread => exact hsame nofun rfl (fun i => by simp [hthread])
  | taskRun w _ _ htask => exact hsame nofun (World.recvs_doTask htask) (fun i => Iff.rfl)
  | taskNone _ hthread => exact hsame nofun rfl (fun i => by simp [hthread])
  | period currTick _ hthread =>
      exact hsame nofun (World.recvs_onPeriodWork _ currTick) (fun i => by simp [hthread])
  | dispatchNone _ hthread => exact hsame nofun rfl (fun i => by simp [hthread])
  | dispatchJob t q w _ _ _ hw =>
      exact hsame nofun (World.recvs_dispatchDatabaseJobResult hw) (fun i => Iff.rfl)
  | accept sock => exact hsame nofun rfl (fun i => Iff.rfl)
  | produceAccepted => exact hsame nofun rfl (fun i => Iff.rfl)
  | produceRequest => exact hsame nofun rfl (fun i => Iff.rfl)
  | consumeRequest => exact hsame nofun rfl (fun i => Iff.rfl)
  | execute => exact hsame nofun rfl (fun i => Iff.rfl)
  | produceResult => exact hsame nofun rfl (fun i => Iff.rfl)

theorem isInvariant_receiving : system.IsInvariant EndsChains Receiving where
  init := by
    rintro _ ⟨tick, answers, players, rfl⟩ i hc
    cases hc
  step _ _ _ hr h hok hstep := h.step (sound_of_reachable hr.reachable) hok hstep

-- ============================================================================
-- Who is collected
-- ============================================================================

/-- Every session there is, is stored under its own socket. -/
def Listed (w : World) : Prop :=
  ∀ i, Allocated w i → w.mClientList[(w.sessions i).mSocket]? = some i

theorem Listed.step {a : Event} (h : Listed st.world) (hsound : Sound st)
    (hok : TakesUnlisted st a) (hstep : st.step a = some st') : Listed st'.world := by
  cases step_change hstep with
  | accept sock _ hworld _ _ =>
      rw [hworld]
      exact h
  | take sendMem recvMem sock hsock hev _ _ =>
      obtain ⟨q, hq⟩ := hsock
      have hnone := hok sock q hq
      rintro i ⟨hlt, hnot⟩
      rw [hev.mClientList, hev.mSocket, mClientList_connectClient, sessions_connectClient]
      rw [hev.next] at hlt
      rw [hev.deleted] at hnot
      by_cases hi : i = st.world.next
      · rw [if_pos hi, hi]
        exact if_pos ⟨rfl, hnone⟩
      · have hold := h i ⟨Nat.lt_of_le_of_ne (Nat.le_of_lt_succ hlt) hi, hnot⟩
        rw [if_neg hi, if_neg]
        · exact hold
        · rintro ⟨hsame, -⟩
          rw [hsame] at hnone
          cases hnone.symm.trans hold
  | period currTick hworld _ _ =>
      rw [hworld]
      obtain ⟨ds, hc | heq⟩ := World.onPeriodWork_spec hsound.keyed currTick
      · rintro i ⟨hlt, hnot⟩
        rw [hc.next] at hlt
        rw [hc.deleted, List.mem_append, not_or] at hnot
        rw [hc.sessions]
        exact (hc.mClientList_eq_some_iff hsound.keyed _ i).mpr ⟨h i ⟨hlt, hnot.2⟩, hnot.1⟩
      · rw [heq]
        exact h
  | evolve _ hev _ _ =>
      rintro i ⟨hlt, hnot⟩
      rw [hev.next] at hlt
      rw [hev.deleted] at hnot
      rw [hev.mClientList, hev.mSocket]
      exact h i ⟨hlt, hnot⟩

theorem isInvariant_listed : system.IsInvariant TakesUnlisted (fun st => Listed st.world) where
  init := by
    rintro _ ⟨tick, answers, players, rfl⟩ i ⟨hlt, -⟩
    exact absurd hlt (Nat.not_lt_zero i)
  step _ _ _ hr h hok hstep := h.step (sound_of_reachable hr.reachable) hok hstep

/-- **The receive chain.**  In every run in which `Disconnect` does not give up
    where a chain ends: whenever no session is being read, every connected one
    has exactly one receive outstanding; and one that has none is disconnected,
    is garbage once nothing counts for it, and is then collected, if no session
    was created on a socket that had an entry. -/
theorem connected_receives (st : Server) (h : system.ReachableBy EndsChains st)
    (hevent : ∀ i, st.clientThread ≠ .reading i) :
    (∀ i, (st.world.sessions i).mConnected = true → st.world.receives i = 1) ∧
      ∀ i, Allocated st.world i → st.world.receives i = 0 →
        (st.world.sessions i).mConnected = false ∧
          ((st.world.sessions i).mRefCount = 0 →
            World.isGarbage (st.world.sessions i) = true ∧
              (system.ReachableBy TakesUnlisted st →
                i ∈ st.world.collectGarbageSessions.deleted)) := by
  have hone : ∀ i, (st.world.sessions i).mConnected = true → st.world.receives i = 1 := by
    intro i hc
    have hreceives := isInvariant_receiving.holds h i hc
    rwa [if_neg (hevent i)] at hreceives
  refine ⟨hone, fun i halloc hnone => ?_⟩
  have hdisc : (st.world.sessions i).mConnected = false := by
    refine eq_false_of_ne_true (fun hc => ?_)
    have := hone i hc
    omega
  refine ⟨hdisc, fun href => ?_⟩
  have hgarbage : World.isGarbage (st.world.sessions i) = true := by
    simp [World.isGarbage, hdisc, href]
  refine ⟨hgarbage, fun hunlisted => ?_⟩
  have hlisted := isInvariant_listed.holds hunlisted i halloc
  obtain ⟨ds, hcoll⟩ :=
    World.collectGarbageSessions_spec (sound_of_reachable h.reachable).keyed
  rw [hcoll.deleted]
  exact List.mem_append_left _ (hcoll.all i hgarbage ⟨_, hlisted⟩)

/-- The next system call succeeds, also where `OnRead` has just been left. -/
def answersNext (st : Server) (_ : Event) : Bool :=
  st.world.os.answers st.world.os.asked && st.clientThread.reader.all (fun this =>
    match World.onReadBody this st.world with
    | .leave (some w) => w.os.answers w.os.asked
    | _ => true)

theorem endsChains_of_answers (st : Server) (a : Event) (h : answersNext st a = true) :
    EndsChains st a := by
  obtain ⟨hnow, hleft⟩ := Bool.and_eq_true_iff.mp h
  cases a with
  | takeAccepted sendMem recvMem => exact fun _ _ _ _ => Or.inl hnow
  | recvCompletion post dwError data => exact fun _ _ => hnow
  | read =>
      intro this w hthread hbody _
      simp only [hthread, ClientThread.reader, Option.all_some, hbody] at hleft
      exact Or.inl hleft
  | _ => trivial

/-- A login request has been read. -/
theorem connected_receives_again :
    ∃ st, system.ReachableBy EndsChains st ∧ (st.world.sessions 0).mConnected = true ∧
      st.world.receives 0 = 1 := by
  have hrun : (system.runIf answersNext (new 0 (fun _ => true) (fun _ => none))
      [.accept 5, .produceAccepted, .takeAccepted (fun _ => 0) (fun _ => 0), .flush,
        .recvCompletion ⟨0, 0, BUFSIZE⟩ false [8, 0, 1, 0, 7, 0, 0, 0], .read, .produceRequest,
        .read]).map
      (fun st => (st.clientThread, (st.world.sessions 0).mConnected))
        = some (.sleeping true, true) := by
    decide +kernel
  obtain ⟨st, hst, hall⟩ := Option.map_eq_some_iff.mp hrun
  obtain ⟨hthread, hconn⟩ := Prod.mk.inj hall
  have hinit : system.ReachableBy EndsChains (new 0 (fun _ => true) (fun _ => none)) :=
    .init ⟨_, _, _, rfl⟩
  have hreach := hinit.runIf endsChains_of_answers hst
  exact ⟨st, hreach, hconn, (connected_receives st hreach (by rw [hthread]; nofun)).1 0 hconn⟩

/-- A receive fails, and the linger option cannot be set: the session stays
    connected, receives nothing any more and is no garbage. -/
theorem connected_not_receives :
    ∃ st i, system.Reachable st ∧ (∀ j, st.clientThread ≠ .reading j) ∧ Allocated st.world i ∧
      (st.world.sessions i).mConnected = true ∧ st.world.receives i = 0 ∧
      World.isGarbage (st.world.sessions i) = false := by
  have hrun : (system.run (new 0 (fun n => decide (n = 0)) (fun _ => none))
      [.accept 5, .produceAccepted, .takeAccepted (fun _ => 0) (fun _ => 0), .flush,
        .recvCompletion ⟨0, 0, BUFSIZE⟩ true []]).map
      (fun st => (st.clientThread, st.world.next, st.world.deleted,
        (st.world.sessions 0).mConnected, st.world.receives 0))
        = some (.sleeping true, 1, [], true, 0) := by
    decide +kernel
  obtain ⟨st, hst, hall⟩ := Option.map_eq_some_iff.mp hrun
  simp only [Prod.mk.injEq] at hall
  obtain ⟨hthread, hnext, hdeleted, hconn, hreceives⟩ := hall
  refine ⟨st, 0, .run (.init ⟨_, _, _, rfl⟩) hst, by rw [hthread]; nofun, ⟨?_, ?_⟩, hconn,
    hreceives, by simp [World.isGarbage, hconn]⟩
  · rw [hnext]
    decide
  · rw [hdeleted]
    decide

end Server
end EasyGameServer
