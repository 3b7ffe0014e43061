/-
  EasyGameServer.Server.Resources

  What the server holds and when it gives it back.  Every open socket has one
  owner, the accept list or a connected session; so none leaks and none is
  closed by somebody else.  A session that has lost its connection starts
  nothing any more, and the first collection that finds it with nothing
  outstanding deletes it.
-/

import EasyGameServer.World.Wire
import EasyGameServer.World.Releasing
import EasyGameServer.Server.Moving
import Mathlib.Data.List.Nodup

namespace EasyGameServer

open Lib

namespace Server

variable {st st' : Server} {i : SessionId}

-- ============================================================================
-- Steps
-- ============================================================================

theorem sessions_onPeriodWork {w : World} (h : w.Keyed) (currTick : UInt32) :
    (w.onPeriodWork currTick).sessions = w.sessions := by
  obtain ⟨ds, hc | heq⟩ := World.onPeriodWork_spec h currTick
  · exact hc.sessions
  · rw [heq]

/-- A socket comes in, or becomes a session's, or the client thread gives back
    what it does not need. -/
inductive Holds (st st' : Server) : Event → Prop
  | accept (sock : SOCKET) (hfresh : sock ∉ st.world.os.opened)
      (hopened : st'.world.os.opened = sock :: st.world.os.opened)
      (hsessions : st'.world.sessions = st.world.sessions)
      (hpending : st'.pending = st.pending ++ [sock]) : Holds st st' (.accept sock)
  | take (sendMem recvMem : Nat → UInt8) (sock : SOCKET)
      (hpending : st.pending = sock :: st'.pending)
      (hreleases : World.Releases (st.world.connectClient sock sendMem recvMem) st'.world) :
      Holds st st' (.takeAccepted sendMem recvMem)
  | release (a : Event) (hpending : st'.pending = st.pending)
      (hreleases : World.Releases st.world st'.world) : Holds st st' a

theorem step_holds {a : Event} (h : st.step a = some st') (hkeyed : st.world.Keyed) :
    Holds st st' a := by
  cases step_moves h with
  | takeAccepted sendMem recvMem sock q _ _ hq =>
      have hcontents := ProducerConsumerQueue.contents_consume hq
      refine .take sendMem recvMem sock ?_ ?_
      · show st.pendingAcceptList.contents ++ _ = sock :: (q.contents ++ _)
        rw [hcontents]
        rfl
      · show World.Releases _ (st.world.acceptClient sock sendMem recvMem)
        rw [World.acceptClient_eq]
        exact World.releases_recvExit _ _
  | flush => exact .release _ rfl (World.releases_flushClientSend _)
  | wake => exact .release _ rfl (.refl _)
  | recvCompletion post dwError data => exact .release _ rfl (World.releases_recvCompletion _ _ _ _)
  | readAgain this w _ _ hbody => exact .release _ rfl (World.releases_onReadBody hbody)
  | readLeave this w _ _ hbody =>
      exact .release _ rfl
        ((World.releases_onReadBody_leave hbody).trans (World.releases_recvExit w this))
  | sendCompletion post dwError cbTransferred =>
      exact .release _ rfl (World.releases_sendCompletion _ _ _ _)
  | timer tick => exact .release _ rfl (.of_eq rfl rfl)
  | taskRun w _ _ htask => exact .release _ rfl (World.releases_doTask htask)
  | taskNone => exact .release _ rfl (.refl _)
  | period currTick =>
      exact .release _ rfl
        (.of_eq (World.os_onPeriodWork _ currTick) (sessions_onPeriodWork hkeyed currTick))
  | dispatchNone => exact .release _ rfl (.refl _)
  | dispatchJob t q w _ _ _ hw =>
      exact .release _ rfl (World.releases_dispatchDatabaseJobResult hw)
  | accept sock hnone hfresh =>
      refine .accept sock hfresh rfl rfl ?_
      show _ ++ [sock] = _ ++ st.acceptedSocket.toList ++ [sock]
      rw [hnone]
      simp
  | produceAccepted sock q hsock hq =>
      refine .release _ ?_ (.refl _)
      show q.contents ++ [] = st.pendingAcceptList.contents ++ st.acceptedSocket.toList
      rw [ProducerConsumerQueue.contents_produce hq, hsock, List.append_nil]
      rfl
  | produceRequest t rest q => exact .release _ rfl (.of_eq rfl rfl)
  | consumeRequest => exact .release _ rfl (.refl _)
  | execute => exact .release _ rfl (.refl _)
  | produceResult => exact .release _ rfl (.refl _)

-- ============================================================================
-- Sockets
-- ============================================================================

/-- Somebody answers for every open socket. -/
structure Owned (w : World) (pending : List SOCKET) : Prop where
  nodup : w.os.opened.Nodup
  owner : ∀ k ∈ w.os.opened, k ∈ pending ∨
    ∃ i, (w.sessions i).mConnected = true ∧ (w.sessions i).mSocket = k

theorem Owned.release {w w' : World} {pending : List SOCKET} (h : Owned w pending)
    (hreleases : World.Releases w w') : Owned w' pending := by
  refine ⟨h.nodup.sublist hreleases.opened, fun k hk => ?_⟩
  rcases h.owner k (hreleases.opened.subset hk) with hpending | ⟨i, hconn, hsock⟩
  · exact Or.inl hpending
  · cases hconn' : (w'.sessions i).mConnected with
    | true => exact Or.inr ⟨i, hconn', (hreleases.mSocket i).trans hsock⟩
    | false =>
        -- it would have closed the socket
        have hclosed := hreleases.closed h.nodup i hconn hconn'
        rw [hsock] at hclosed
        exact absurd hk hclosed

theorem Owned.accept {w w' : World} {pending : List SOCKET} {sock : SOCKET}
    (h : Owned w pending) (hfresh : sock ∉ w.os.opened)
    (hopened : w'.os.opened = sock :: w.os.opened) (hsessions : w'.sessions = w.sessions) :
    Owned w' (pending ++ [sock]) := by
  refine ⟨?_, fun k hk => ?_⟩
  · rw [hopened]
    exact List.nodup_cons.mpr ⟨hfresh, h.nodup⟩
  · rw [hopened] at hk
    rcases List.mem_cons.mp hk with rfl | hk
    · exact Or.inl (List.mem_append_right _ List.mem_cons_self)
    · rw [hsessions]
      exact (h.owner k hk).imp_left (List.mem_append_left _)

theorem Owned.connect {w : World} {pending : List SOCKET} {sock : SOCKET}
    (h : Owned w (sock :: pending)) (hunused : (w.sessions w.next).mConnected = false)
    (sendMem recvMem : Nat → UInt8) : Owned (w.connectClient sock sendMem recvMem) pending := by
  have hsessions := sessions_connectClient w sock sendMem recvMem
  refine ⟨h.nodup, fun k hk => ?_⟩
  rcases h.owner k hk with hpending | ⟨i, hconn, hsock⟩
  · rcases List.mem_cons.mp hpending with rfl | hpending
    · refine Or.inr ⟨w.next, ?_⟩
      rw [hsessions, if_pos rfl]
      exact ⟨rfl, rfl⟩
    · exact Or.inl hpending
  · have hne : i ≠ w.next := by
      rintro rfl
      exact absurd (hunused.symm.trans hconn) (by decide)
    refine Or.inr ⟨i, ?_⟩
    rw [hsessions, if_neg hne]
    exact ⟨hconn, hsock⟩

theorem owned_step {a : Event} (h : Owned st.world st.pending) (hsound : Sound st)
    (hstep : st.step a = some st') : Owned st'.world st'.pending := by
  cases step_holds hstep hsound.keyed with
  | accept sock hfresh hopened hsessions hpending =>
      rw [hpending]
      exact h.accept hfresh hopened hsessions
  | take sendMem recvMem sock hpending hreleases =>
      have hunused : (st.world.sessions st.world.next).mConnected = false :=
        eq_false_of_ne_true (fun hc => Nat.lt_irrefl _ (hsound.unused _ hc))
      rw [hpending] at h
      exact (h.connect hunused sendMem recvMem).release hreleases
  | release _ hpending hreleases =>
      rw [hpending]
      exact h.release hreleases

theorem isInvariant_owned : system.IsInvariant System.always
    (fun st => Handles st.world st.pending ∧ Owned st.world st.pending) where
  init := by
    rintro _ ⟨tick, answers, players, rfl⟩
    have hnone : (new tick answers players).pending = [] := by
      show (ProducerConsumerQueue.new 0 : ProducerConsumerQueue SOCKET _).contents ++ [] = []
      rw [ProducerConsumerQueue.contents_new]
      rfl
    rw [hnone]
    exact ⟨⟨nofun, nofun, nofun, List.nodup_nil, nofun⟩, ⟨List.nodup_nil, nofun⟩⟩
  step _ _ _ hr h _ hstep :=
    have hsound := sound_of_reachable hr
    ⟨handles_step h.1 hstep hsound.keyed, owned_step h.2 hsound hstep⟩

/-- The sockets of the connected sessions. -/
def connectedSockets (w : World) : List SOCKET :=
  ((List.range w.next).filter (fun i => (w.sessions i).mConnected)).map
    (fun i => (w.sessions i).mSocket)

theorem mem_connectedSockets_iff (h : Sound st) (k : SOCKET) :
    k ∈ connectedSockets st.world ↔
      ∃ i, (st.world.sessions i).mConnected = true ∧ (st.world.sessions i).mSocket = k := by
  simp only [connectedSockets, List.mem_map, List.mem_filter, List.mem_range]
  constructor
  · rintro ⟨i, ⟨-, hconn⟩, hsock⟩
    exact ⟨i, hconn, hsock⟩
  · rintro ⟨i, hconn, hsock⟩
    exact ⟨i, ⟨h.unused i hconn, hconn⟩, hsock⟩

theorem nodup_connectedSockets {w : World} {pending : List SOCKET} (h : Handles w pending) :
    (connectedSockets w).Nodup := by
  refine List.Nodup.map_on (fun i hi j hj heq => ?_) (List.nodup_range.filter _)
  exact h.distinct i j (List.mem_filter.mp hi).2 (List.mem_filter.mp hj).2 heq

/-- **One owner for every socket.**  The open sockets are those waiting to be
    taken and those of the connected sessions, each once. -/
theorem sockets_owned (st : Server) (h : system.Reachable st) :
    st.world.os.opened.Nodup ∧
      st.world.os.opened.Perm (st.pending ++ connectedSockets st.world) := by
  obtain ⟨hhandles, howned⟩ := isInvariant_owned.holds h
  have hmem := mem_connectedSockets_iff (sound_of_reachable h)
  refine ⟨howned.nodup, (List.perm_ext_iff_of_nodup howned.nodup ?_).mpr (fun k => ?_)⟩
  · refine List.nodup_append.mpr ⟨hhandles.pendingNodup, nodup_connectedSockets hhandles, ?_⟩
    rintro k hk _ hk' rfl
    obtain ⟨i, hconn, hsock⟩ := (hmem k).mp hk'
    exact hhandles.pendingFresh i hconn (hsock ▸ hk)
  · rw [List.mem_append, hmem]
    constructor
    · exact howned.owner k
    · rintro (hk | ⟨i, hconn, rfl⟩)
      · exact hhandles.pendingOpened k hk
      · exact hhandles.opened i hconn

/-- One client is connected, another waits, a third has hung up. -/
theorem sockets_owned_three :
    ∃ st, system.Reachable st ∧ st.world.os.opened = [7, 6] ∧
      st.world.os.opened.Perm (st.pending ++ connectedSockets st.world) := by
  have hrun : (system.run (new 0 (fun _ => true) onePlayer) (loginEvents ++
      [.wake, .accept 6, .produceAccepted, .takeAccepted (fun _ => 0) (fun _ => 0), .flush,
        .recvCompletion ⟨0, 0, BUFSIZE⟩ false [], .accept 7])).map
      (fun st => st.world.os.opened) = some [7, 6] := by
    decide +kernel
  obtain ⟨st, hst, hopened⟩ := Option.map_eq_some_iff.mp hrun
  have hreach : system.Reachable st := .run (.init ⟨_, _, _, rfl⟩) hst
  exact ⟨st, hreach, hopened, (sockets_owned st hreach).2⟩

-- ============================================================================
-- Session objects
-- ============================================================================

/-- A collection is due. -/
def CollectionDue (w : World) (currTick : UInt32) : Prop := currTick - w.mLastGCTick ≥ 1000

/-- A step deletes nobody unless it is a timer pass whose collection is due. -/
theorem deleted_step {a : Event} (h : st.step a = some st') :
    st'.world.deleted = st.world.deleted ∨
      ∃ currTick, a = .period currTick ∧ CollectionDue st.world currTick := by
  cases step_change h with
  | accept sock _ hworld => exact Or.inl (by rw [hworld])
  | take sendMem recvMem sock _ hev => exact Or.inl hev.deleted
  | period currTick hworld =>
      rw [hworld, World.onPeriodWork]
      by_cases hdue : currTick - st.world.mLastGCTick ≥ 1000
      · exact Or.inr ⟨currTick, rfl, hdue⟩
      · rw [if_neg hdue]
        exact Or.inl rfl
  | evolve _ hev => exact Or.inl hev.deleted

/-- A collection that is due takes the registered sessions that are neither
    connected nor counted. -/
theorem collected_period {currTick : UInt32} (h : st.step (.period currTick) = some st')
    (hkeyed : st.world.Keyed) (hdue : CollectionDue st.world currTick) :
    ∃ ds, World.Collected st.world st'.world ds := by
  unfold CollectionDue at hdue
  cases step_moves h with
  | period =>
      obtain ⟨ds, hds⟩ := World.collectGarbageSessions_spec hkeyed
      refine ⟨ds, ?_⟩
      show World.Collected st.world (st.world.onPeriodWork currTick) ds
      rw [World.onPeriodWork, if_pos hdue]
      exact ⟨hds.sessions, hds.next, hds.os, hds.scheduler, hds.outbox, hds.pushed, hds.trace,
        hds.deleted, hds.mClientList, hds.nodup, hds.garbage, hds.all⟩

/-- Who is registered stays so until deleted. -/
theorem staysListed_step {a : Event} (h : st.step a = some st') (hkeyed : st.world.Keyed)
    (hlisted : st.world.IsListed i) : st'.world.IsListed i ∨ i ∈ st'.world.deleted := by
  obtain ⟨k, hk⟩ := hlisted
  cases step_change h with
  | accept sock _ hworld => exact Or.inl ⟨k, by rw [hworld]; exact hk⟩
  | take sendMem recvMem sock _ hev =>
      refine Or.inl ⟨k, ?_⟩
      rw [hev.mClientList, mClientList_connectClient, if_neg]
      · exact hk
      · rintro ⟨rfl, hnone⟩
        rw [hk] at hnone
        cases hnone
  | period currTick hworld =>
      obtain ⟨ds, hc | heq⟩ := World.onPeriodWork_spec hkeyed currTick
      · rw [hworld]
        by_cases hmem : i ∈ ds
        · refine Or.inr ?_
          rw [hc.deleted]
          exact List.mem_append_left _ hmem
        · exact Or.inl ⟨k, (hc.mClientList_eq_some_iff hkeyed k i).mpr ⟨hk, hmem⟩⟩
      · rw [hworld, heq]
        exact Or.inl ⟨k, hk⟩
  | evolve _ hev =>
      refine Or.inl ⟨k, ?_⟩
      rw [hev.mClientList]
      exact hk

/-- What a session without a connection is counted for. -/
theorem mRefCount_eq_held (h : Sound st) (i : SessionId) :
    (st.world.sessions i).mRefCount = st.world.held i := by
  have hcounted := h.counted i
  rw [World.balance] at hcounted
  omega

/-- Without a connection it starts nothing. -/
theorem winds_down {a : Event} (hsound : Sound st) (hsound' : Sound st')
    (h : st.step a = some st') (hlt : i < st.world.next)
    (hdisc : (st.world.sessions i).mConnected = false) :
    (st'.world.sessions i).mConnected = false ∧ st'.world.held i ≤ st.world.held i := by
  have hcount := mRefCount_eq_held hsound i
  have hcount' := mRefCount_eq_held hsound' i
  cases step_holds h hsound.keyed with
  | accept sock _ _ hsessions =>
      rw [hsessions] at hcount' ⊢
      exact ⟨hdisc, by omega⟩
  | take sendMem recvMem sock _ hreleases =>
      have hsame := sessions_connectClient st.world sock sendMem recvMem i
      rw [if_neg (Nat.ne_of_lt hlt)] at hsame
      have hrelease := hreleases.mRefCount i
      rw [hsame] at hrelease
      refine ⟨hreleases.mConnected i (by rw [hsame]; exact hdisc), ?_⟩
      have := hrelease hdisc
      omega
  | release _ _ hreleases =>
      have := hreleases.mRefCount i hdisc
      exact ⟨hreleases.mConnected i hdisc, by omega⟩

/-- One step deletes a registered session without a connection exactly if it
    is a due collection and nothing is outstanding. -/
theorem mem_deleted_step {a : Event} (hsound : Sound st) (h : st.step a = some st')
    (hlisted : st.world.IsListed i) (hdisc : (st.world.sessions i).mConnected = false) :
    i ∈ st'.world.deleted ↔ ∃ currTick, a = .period currTick ∧
      CollectionDue st.world currTick ∧ st.world.held i = 0 := by
  have hcount := mRefCount_eq_held hsound i
  have hnot : i ∉ st.world.deleted := by
    obtain ⟨k, hk⟩ := hlisted
    exact (hsound.registered k i hk).2
  rcases deleted_step h with hsame | ⟨currTick, rfl, hdue⟩
  · constructor
    · intro hmem
      rw [hsame] at hmem
      exact absurd hmem hnot
    · rintro ⟨currTick, rfl, hdue, hheld⟩
      obtain ⟨ds, hc⟩ := collected_period h hsound.keyed hdue
      rw [hc.deleted]
      refine List.mem_append_left _ (hc.all i ?_ hlisted)
      rw [World.isGarbage, hdisc, hcount, hheld]
      rfl
  · obtain ⟨ds, hc⟩ := collected_period h hsound.keyed hdue
    rw [hc.deleted, List.mem_append]
    constructor
    · rintro (hmem | hmem)
      · have hgarbage := (hc.garbage i hmem).1
        simp only [World.isGarbage, Bool.and_eq_true, decide_eq_true_eq] at hgarbage
        exact ⟨currTick, rfl, hdue, by omega⟩
      · exact absurd hmem hnot
    · rintro ⟨_, -, -, hheld⟩
      refine Or.inl (hc.all i ?_ hlisted)
      rw [World.isGarbage, hdisc, hcount, hheld]
      rfl

theorem deleted_mono {a : Event} (h : st.step a = some st') (hkeyed : st.world.Keyed)
    (hmem : i ∈ st.world.deleted) : i ∈ st'.world.deleted := by
  rcases deleted_step h with hsame | ⟨currTick, rfl, hdue⟩
  · rw [hsame]
    exact hmem
  · obtain ⟨ds, hc⟩ := collected_period h hkeyed hdue
    rw [hc.deleted]
    exact List.mem_append_right _ hmem

/-- **Sessions are reclaimed.**  After a registered session has lost its
    connection, its outstanding I/Os and tasks only get fewer, and it is
    deleted by the first due collection that finds none. -/
theorem reclaimed_iff (st st' : Server) (i : SessionId) (ts : List (System.Transition Server Event))
    (h : system.Reachable st) (hlisted : st.world.IsListed i)
    (hdisc : (st.world.sessions i).mConnected = false) (hpath : system.Path st ts st') :
    (st'.world.sessions i).mConnected = false ∧ st'.world.held i ≤ st.world.held i ∧
      (i ∈ st'.world.deleted ↔ ∃ tr ∈ ts, ∃ currTick, tr.label = .period currTick ∧
        CollectionDue tr.before.world currTick ∧ tr.before.world.held i = 0) := by
  have hlt : i < st.world.next := by
    obtain ⟨k, hk⟩ := hlisted
    exact ((sound_of_reachable h).registered k i hk).1
  suffices hall : (st'.world.sessions i).mConnected = false ∧
      st'.world.held i ≤ st.world.held i ∧ i < st'.world.next ∧
      (st'.world.IsListed i ∨ i ∈ st'.world.deleted) ∧
      (i ∈ st'.world.deleted ↔ ∃ tr ∈ ts, ∃ currTick, tr.label = .period currTick ∧
        CollectionDue tr.before.world currTick ∧ tr.before.world.held i = 0) from
    ⟨hall.1, hall.2.1, hall.2.2.2.2⟩
  induction hpath with
  | nil =>
      refine ⟨hdisc, Nat.le_refl _, hlt, Or.inl hlisted, fun hmem => ?_, fun hmem => ?_⟩
      · obtain ⟨k, hk⟩ := hlisted
        exact absurd hmem ((sound_of_reachable h).registered k i hk).2
      · obtain ⟨tr, htr, -⟩ := hmem
        cases htr
  | @snoc t t' ts a hpath hstep ih =>
      obtain ⟨hdisc', hheld, hlt', hplace, hdeleted⟩ := ih
      have hreach := hpath.reachable h
      have hsound := sound_of_reachable hreach
      have hsound' := sound_of_reachable (.step hreach trivial hstep)
      obtain ⟨hdisc'', hheld'⟩ := winds_down hsound hsound' hstep hlt' hdisc'
      refine ⟨hdisc'', Nat.le_trans hheld' hheld,
        Nat.lt_of_lt_of_le hlt' (ages_of_step hstep hsound.keyed).next, ?_, ?_⟩
      · rcases hplace with hl | hmem
        · exact staysListed_step hstep hsound.keyed hl
        · exact Or.inr (deleted_mono hstep hsound.keyed hmem)
      · simp only [List.mem_append, List.mem_singleton, or_and_right, exists_or, exists_eq_left]
        rw [← hdeleted]
        rcases hplace with hl | hmem
        · -- still registered, so not deleted before this step
          have hnot : i ∉ t.world.deleted := by
            obtain ⟨k, hk⟩ := hl
            exact (hsound.registered k i hk).2
          rw [mem_deleted_step hsound hstep hl hdisc']
          exact (or_iff_right hnot).symm
        · exact ⟨fun _ => Or.inl hmem, fun _ => deleted_mono hstep hsound.keyed hmem⟩

/-- A client hangs up; once its two tasks have run out it is collected. -/
theorem reclaimed_hangup :
    ∃ st st' ts, system.Reachable st ∧ system.Path st ts st' ∧ 0 ∈ st'.world.deleted ∧
      ∃ tr ∈ ts, ∃ currTick, tr.label = .period currTick ∧
        CollectionDue tr.before.world currTick ∧ tr.before.world.held 0 = 0 := by
  have hrun : ((system.run (new 0 (fun _ => true) onePlayer)
      (loginEvents ++ [.recvCompletion ⟨0, 0, BUFSIZE⟩ false []])).bind
        (fun st => (system.run st [.timer 60200, .task, .task, .task, .period 60200]).map
          (fun st' => (st, st')))).map
      (fun p => (p.1.world.mClientList[5]?, (p.1.world.sessions 0).mConnected,
        p.2.world.deleted)) = some (some 0, false, [0]) := by
    decide +kernel
  obtain ⟨⟨st, st'⟩, hst, hall⟩ := Option.map_eq_some_iff.mp hrun
  simp only [Prod.mk.injEq] at hall
  obtain ⟨hlisted, hdisc, hdeleted⟩ := hall
  obtain ⟨st₁, hst₁, hrest⟩ := Option.bind_eq_some_iff.mp hst
  obtain ⟨st₂, hst₂, heq⟩ := Option.map_eq_some_iff.mp hrest
  cases heq
  have hreach : system.Reachable st := .run (.init ⟨_, _, _, rfl⟩) hst₁
  obtain ⟨ts, hpath⟩ := System.exists_path_of_run hst₂
  have hmem : 0 ∈ st'.world.deleted := hdeleted ▸ List.mem_cons_self
  exact ⟨st, st', ts, hreach, hpath, hmem,
    (reclaimed_iff st st' 0 ts hreach ⟨5, hlisted⟩ hdisc hpath).2.2.mp hmem⟩

end Server
end EasyGameServer
