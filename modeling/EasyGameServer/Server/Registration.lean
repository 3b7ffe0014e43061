/-
  EasyGameServer.Server.Registration

  Which connected sessions the client list reaches.  `CreateClient` inserts
  into a map, which changes nothing when the key is there, and an entry stays
  until its session is collected.  So a handle value that the system hands out
  again before that gets a session nobody finds: it is registered in every run
  that takes no such value, and in no other case.
-/

import EasyGameServer.Server.Sessions

namespace EasyGameServer

open Lib

namespace Server

/-- Every connected session is the one stored under its own socket. -/
def Registered (w : World) : Prop :=
  ∀ i, (w.sessions i).mConnected = true → w.mClientList[(w.sessions i).mSocket]? = some i

/-- The client thread creates no session on a socket that still has an entry
    in the client list. -/
def TakesUnlisted (st : Server) : Event → Prop
  | .takeAccepted _ _ => ∀ sock q, st.pendingAcceptList.consume = some (sock, q) →
      st.world.mClientList[sock]? = none
  | _ => True

variable {st st' : Server}

theorem Registered.evolve {P : SessionId → Prop} {w w' : World} (h : Registered w)
    (hev : World.Evolves P w w') : Registered w' := by
  intro i hc
  rw [hev.mClientList, hev.mSocket]
  exact h i (hev.mConnected i hc)

/-- The entry of a new session is made when there is none. -/
theorem Registered.connect {w : World} (h : Registered w) {sock : SOCKET}
    (hnone : w.mClientList[sock]? = none) (sendMem recvMem : Nat → UInt8) :
    Registered (w.connectClient sock sendMem recvMem) := by
  intro i hc
  rw [sessions_connectClient] at hc ⊢
  rw [mClientList_connectClient]
  by_cases hi : i = w.next
  · rw [if_pos hi, hi]
    exact if_pos ⟨rfl, hnone⟩
  · rw [if_neg hi] at hc ⊢
    have hreg := h i hc
    rw [if_neg]
    · exact hreg
    · rintro ⟨hsock, -⟩
      rw [hsock, hreg] at hnone
      cases hnone

/-- Collecting takes no entry of a connected session. -/
theorem Registered.collect {w w' : World} {ds : List SessionId} (h : Registered w)
    (hkeyed : w.Keyed) (hc : World.Collected w w' ds) : Registered w' := by
  intro i hconn
  rw [hc.sessions] at hconn ⊢
  refine (hc.mClientList_eq_some_iff hkeyed _ i).mpr ⟨h i hconn, fun hi => ?_⟩
  have hgarbage := (hc.garbage i hi).1
  simp [World.isGarbage, hconn] at hgarbage

theorem Registered.step {a : Event} (h : Registered st.world) (hsound : Sound st)
    (hok : TakesUnlisted st a) (hstep : st.step a = some st') : Registered st'.world := by
  cases step_change hstep with
  | accept sock _ hworld _ _ =>
      rw [hworld]
      exact h
  | take sendMem recvMem sock hsock hev _ _ =>
      obtain ⟨q, hq⟩ := hsock
      exact (h.connect (hok sock q hq) sendMem recvMem).evolve hev
  | period currTick hworld _ _ =>
      rw [hworld]
      obtain ⟨ds, hc | heq⟩ := World.onPeriodWork_spec hsound.keyed currTick
      · exact h.collect hsound.keyed hc
      · rw [heq]
        exact h
  | evolve _ hev _ _ => exact h.evolve hev

theorem isInvariant_registered :
    system.IsInvariant TakesUnlisted (fun st => Registered st.world) where
  init := by
    rintro _ ⟨tick, answers, players, rfl⟩ i hc
    cases hc
  step _ _ _ hr h hok hstep := h.step (sound_of_reachable hr.reachable) hok hstep

/-- **Registration.**  In every run in which the client thread takes no socket
    that still has an entry, every connected session is registered whenever
    the thread is at the head of its loop. -/
theorem connected_registered (st : Server) (h : system.ReachableBy TakesUnlisted st)
    (_ : st.clientThread = .loopTop) (i : SessionId)
    (hc : (st.world.sessions i).mConnected = true) :
    st.world.mClientList[(st.world.sessions i).mSocket]? = some i :=
  isInvariant_registered.holds h i hc

/-- Is the socket that is taken without an entry? -/
def findsUnlisted (st : Server) : Event → Bool
  | .takeAccepted _ _ =>
      st.pendingAcceptList.consume.all (fun r => (st.world.mClientList[r.1]?).isNone)
  | _ => true

theorem takesUnlisted_of_findsUnlisted (st : Server) (a : Event)
    (h : findsUnlisted st a = true) : TakesUnlisted st a := by
  cases a with
  | takeAccepted sendMem recvMem =>
      intro sock q hq
      rw [findsUnlisted, hq] at h
      exact Option.isNone_iff_eq_none.mp h
  | _ => trivial

/-- A client hangs up and is collected before its handle value comes again. -/
theorem connected_registered_again :
    ∃ st, system.ReachableBy TakesUnlisted st ∧ st.world.deleted = [0] ∧
      (st.world.sessions 0).mSocket = (st.world.sessions 1).mSocket ∧
      (st.world.sessions 1).mConnected = true ∧
      st.world.mClientList[(st.world.sessions 1).mSocket]? = some 1 := by
  have hrun : (system.runIf findsUnlisted (new 0 (fun _ => true) (fun _ => none))
      [.accept 5, .produceAccepted, .takeAccepted (fun _ => 0) (fun _ => 0), .flush,
        .recvCompletion ⟨0, 0, BUFSIZE⟩ true [], .timer 1000, .task, .period 1000, .dispatch,
        .wake, .accept 5, .produceAccepted, .takeAccepted (fun _ => 0) (fun _ => 0)]).map
      (fun st => (decide (st.clientThread = .loopTop), st.world.deleted,
        (st.world.sessions 0).mSocket, (st.world.sessions 1).mSocket,
        (st.world.sessions 1).mConnected)) = some (true, [0], 5, 5, true) := by
    decide +kernel
  obtain ⟨st, hst, hall⟩ := Option.map_eq_some_iff.mp hrun
  simp only [Prod.mk.injEq, decide_eq_true_eq] at hall
  obtain ⟨hthread, hdeleted, hsock, hsock', hconn⟩ := hall
  have hinit : system.ReachableBy TakesUnlisted (new 0 (fun _ => true) (fun _ => none)) :=
    .init ⟨_, _, _, rfl⟩
  have hreach := hinit.runIf takesUnlisted_of_findsUnlisted hst
  exact ⟨st, hreach, hdeleted, hsock.trans hsock'.symm, hconn,
    connected_registered st hreach hthread 1 hconn⟩

/-- A client is disconnected by an error and the system hands out its handle
    value again at once. -/
theorem connected_not_registered :
    ∃ st i, system.Reachable st ∧ st.clientThread = .loopTop ∧
      (st.world.sessions i).mConnected = true ∧
      st.world.mClientList[(st.world.sessions i).mSocket]? ≠ some i := by
  have hrun : ∃ st, system.run (new 0 (fun _ => true) (fun _ => none))
      [.accept 5, .produceAccepted, .takeAccepted (fun _ => 0) (fun _ => 0), .flush,
        .recvCompletion ⟨0, 0, BUFSIZE⟩ true [], .wake,
        .accept 5, .produceAccepted, .takeAccepted (fun _ => 0) (fun _ => 0)] = some st ∧
      st.clientThread = .loopTop ∧ (st.world.sessions 1).mConnected = true ∧
      st.world.mClientList[(st.world.sessions 1).mSocket]? ≠ some 1 :=
    ⟨_, rfl, rfl, rfl, by decide⟩
  obtain ⟨st, hst, hthread, hc, hnot⟩ := hrun
  exact ⟨st, 1, .run (.init ⟨_, _, _, rfl⟩) hst, hthread, hc, hnot⟩

/-- And only in those: a session created on a socket that has an entry is not
    registered, and will not be. -/
theorem not_registered_of_listed {sendMem recvMem : Nat → UInt8} (hr : system.Reachable st)
    (hlisted : ¬ TakesUnlisted st (.takeAccepted sendMem recvMem))
    (hstep : st.step (.takeAccepted sendMem recvMem) = some st') :
    ∀ k : SOCKET, st'.world.mClientList[k]? ≠ some st.world.next := by
  intro k hk
  cases step_change hstep with
  | take _ _ sock hsock hev _ _ =>
      obtain ⟨q, hq⟩ := hsock
      have hentry : st.world.mClientList[sock]? ≠ none := by
        intro hnone
        refine hlisted (fun sock' q' hq' => ?_)
        rw [hq] at hq'
        cases hq'
        exact hnone
      rw [hev.mClientList, mClientList_connectClient, if_neg (fun hc => hentry hc.2)] at hk
      exact Nat.lt_irrefl _ ((sound_of_reachable hr).registered k _ hk).1
  | evolve _ hev _ _ =>
      rw [hev.mClientList] at hk
      exact Nat.lt_irrefl _ ((sound_of_reachable hr).registered k _ hk).1

end Server
end EasyGameServer
