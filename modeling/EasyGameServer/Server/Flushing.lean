/-
  EasyGameServer.Server.Flushing

  Whether the client thread falls asleep on bytes that nobody sends.  It
  flushes every registered session right before `SleepEx`, and a flush hands
  over, or hangs up, unless `WSASend` and then the linger option fail for one
  session.  So in `SleepEx`, until some routine has run, every client that has
  bytes coming has a send outstanding, whose completion wakes the thread.
-/

import EasyGameServer.World.Wire
import EasyGameServer.Server.Broadcast

namespace EasyGameServer

open Lib

/-- Nothing is contiguous only in an empty buffer. -/
theorem CircularBuffer.getContiguousBytes_eq_zero_iff (cb : CircularBuffer) :
    cb.getContiguousBytes = 0 ↔ cb.contents = [] := by
  rw [← List.length_eq_zero_iff, length_contents, getContiguousBytes, getStoredSize]
  split
  · omega
  · omega

namespace Server

/-- In no flush do two calls fail one right after the other. -/
def HangsUp (st : Server) : Event → Prop
  | .flush => ¬ World.FailTwice st.world.os st.world.flushClientSend.os
  | _ => True

/-- Every client with bytes in its send buffer has a send outstanding. -/
def Flowing (st : Server) : Prop :=
  ∀ i, Present i st → st.buffered i ≠ [] → st.world.os.sendsOf i ≠ []

variable {st st' : Server}

/-- A flush leaves nothing lying. -/
theorem flowing_flush (hkeyed : st.world.Keyed) (hok : HangsUp st .flush)
    (hworld : st'.world = st.world.flushClientSend) : Flowing st' := by
  rintro i ⟨hlisted, hconn⟩ hbytes
  rw [Server.buffered, hworld,
    World.fixes_flushClientSend ClientSession.blind_mSendBuffer st.world i] at hbytes
  have hreg : st.world.IsListed i := by
    obtain ⟨k, hk⟩ := hlisted
    rw [hworld, (World.evolves_flushClientSend st.world).mClientList] at hk
    exact ⟨k, hk⟩
  rw [hworld] at hconn ⊢
  have hwas := (World.evolves_flushClientSend st.world).mConnected i hconn
  have hready : (st.world.sessions i).Ready :=
    ⟨hwas, fun hzero => hbytes ((CircularBuffer.getContiguousBytes_eq_zero_iff _).mp hzero)⟩
  cases (World.flushed_flushClientSend hkeyed i).1 hreg with
  | idle hnot => exact absurd hready hnot
  | posted _ _ _ hsends =>
      rw [hsends]
      exact fun hnil => List.cons_ne_nil _ _ (List.append_eq_nil_iff.mp hnil).2
  | failed _ _ _ hhung =>
      rcases hhung with hdisc | htwice
      · rw [hdisc] at hconn
        cases hconn
      · exact absurd htwice hok

/-- What goes on beside the sleeping thread sends and buffers nothing. -/
theorem Flowing.congr (h : Flowing st) (hsessions : st'.world.sessions = st.world.sessions)
    (hlist : st'.world.mClientList = st.world.mClientList)
    (hsends : st'.world.os.sends = st.world.os.sends) : Flowing st' := by
  rintro i ⟨⟨k, hk⟩, hconn⟩ hbytes
  rw [hlist] at hk
  rw [hsessions] at hconn
  rw [Server.buffered, hsessions] at hbytes
  rw [Os.sendsOf, hsends]
  exact h i ⟨⟨k, hk⟩, hconn⟩ hbytes

theorem isInvariant_flowing :
    system.IsInvariant HangsUp (fun st => st.clientThread = .sleeping false → Flowing st) where
  init := by
    rintro _ ⟨tick, answers, players, rfl⟩ hthread
    cases hthread
  step := by
    intro st a st' hr h hok hstep hthread
    cases step_moves hstep with
    | flush => exact flowing_flush (sound_of_reachable hr.reachable).keyed hok rfl
    | recvCompletion post dwError data =>
        simp only at hthread
        split at hthread
        · cases hthread
        · cases hthread
    | takeAccepted _ _ _ _ _ hloop => exact absurd (hloop.symm.trans hthread) nofun
    | readAgain _ _ _ hreading => exact absurd (hreading.symm.trans hthread) nofun
    | taskRun _ _ hdoing => exact absurd (hdoing.symm.trans hthread) nofun
    | dispatchJob _ _ _ _ hdispatching => exact absurd (hdispatching.symm.trans hthread) nofun
    | accept => exact (h hthread).congr rfl rfl rfl
    | produceAccepted => exact h hthread
    | produceRequest => exact (h hthread).congr rfl rfl rfl
    | consumeRequest => exact h hthread
    | execute => exact h hthread
    | produceResult => exact h hthread
    | _ => cases hthread

/-- **No sleep on unsent bytes.**  In every run in whose flushes no two calls
    fail one right after the other, while the client thread sleeps and no
    routine has run, each registered and connected session with bytes in its
    send buffer has a send outstanding. -/
theorem sleeping_flows (st : Server) (h : system.ReachableBy HangsUp st)
    (hthread : st.clientThread = .sleeping false) (i : SessionId) (hi : Present i st)
    (hbytes : st.buffered i ≠ []) : ∃ post ∈ st.world.os.sends, post.owner = i := by
  have hflows := isInvariant_flowing.holds h hthread i hi hbytes
  obtain ⟨post, hpost⟩ := List.exists_mem_of_ne_nil _ hflows
  obtain ⟨hmem, howner⟩ := List.mem_filter.mp hpost
  exact ⟨post, hmem, of_decide_eq_true howner⟩

/-- A flush that makes one call at most. -/
def flushesOne (st : Server) : Event → Bool
  | .flush => decide (st.world.flushClientSend.os.asked ≤ st.world.os.asked + 1)
  | _ => true

theorem hangsUp_of_flushesOne (st : Server) (a : Event) (h : flushesOne st a = true) :
    HangsUp st a := by
  cases a with
  | flush =>
      rintro ⟨n, hle, hlt, -, -⟩
      have hone := of_decide_eq_true h
      omega
  | _ => trivial

/-- The login result of the first client. -/
theorem sleeping_flows_login :
    ∃ st, system.ReachableBy HangsUp st ∧ st.clientThread = .sleeping false ∧
      ∃ post ∈ st.world.os.sends, post.owner = 0 := by
  have hrun : (system.runIf flushesOne (new 0 (fun _ => true) onePlayer)
      (loginEvents ++ [.wake, .flush])).map
      (fun st => (decide (st.clientThread = .sleeping false), st.world.mClientList[5]?,
        (st.world.sessions 0).mConnected, decide (st.buffered 0 = [])))
        = some (true, some 0, true, false) := by
    decide +kernel
  obtain ⟨st, hst, hall⟩ := Option.map_eq_some_iff.mp hrun
  simp only [Prod.mk.injEq, decide_eq_true_eq, decide_eq_false_iff_not] at hall
  obtain ⟨hthread, hlisted, hconn, hbytes⟩ := hall
  have hinit : system.ReachableBy HangsUp (new 0 (fun _ => true) onePlayer) :=
    .init ⟨_, _, _, rfl⟩
  have hreach := hinit.runIf hangsUp_of_flushesOne hst
  exact ⟨st, hreach, hthread, sleeping_flows st hreach hthread 0 ⟨⟨5, hlisted⟩, hconn⟩ hbytes⟩

end Server
end EasyGameServer
