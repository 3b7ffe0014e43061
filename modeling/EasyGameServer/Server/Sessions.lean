/-
  EasyGameServer.Server.Sessions

  The life of session objects in every run.  `Sound` holds in every reachable
  state: a session's reference count is the number of its outstanding I/Os and
  queued tasks, and whatever is registered, outstanding, queued or being read
  is a session that exists and has not been deleted.
-/

import EasyGameServer.Server.Steps
import EasyGameServer.World.Garbage

namespace EasyGameServer

open Lib

namespace Server

/-- A session that has been created and not been deleted. -/
def Allocated (w : World) (i : SessionId) : Prop := i < w.next ∧ i ∉ w.deleted

structure Sound (st : Server) : Prop where
  unused : ∀ i, (st.world.sessions i).mConnected = true → i < st.world.next
  counted : ∀ i, st.world.balance i = 0
  keyed : st.world.Keyed
  registered : ∀ (k : SOCKET) (i : SessionId), st.world.mClientList[k]? = some i →
    Allocated st.world i
  held : ∀ i, 0 < st.world.held i → Allocated st.world i
  reading : ∀ i, st.clientThread = .reading i → Allocated st.world i
  deleted_lt : ∀ i ∈ st.world.deleted, i < st.world.next
  deleted_nodup : st.world.deleted.Nodup

theorem Sound.inUse {st : Server} (h : Sound st) {i : SessionId} (hi : st.InUse i) :
    Allocated st.world i := by
  rcases hi with ⟨k, hk⟩ | hr
  · exact h.registered k i hk
  · exact h.reading i hr

theorem sound_new (tick : UInt32) (answers : Nat → Bool) (players : Players) :
    Sound (new tick answers players) where
  unused _ h := nomatch h
  counted _ := rfl
  keyed k i h := by
    rw [show (new tick answers players).world.mClientList = ∅ from rfl,
      Std.TreeMap.getElem?_emptyc] at h
    cases h
  registered k i h := by
    rw [show (new tick answers players).world.mClientList = ∅ from rfl,
      Std.TreeMap.getElem?_emptyc] at h
    cases h
  held i h := absurd h (Nat.lt_irrefl 0)
  reading _ h := nomatch h
  deleted_lt _ h := absurd h List.not_mem_nil
  deleted_nodup := List.nodup_nil

variable {st st' : Server}

/-- Evolving keeps it. -/
theorem Sound.evolve (h : Sound st) (hev : World.Evolves st.InUse st.world st'.world)
    (hreading : ∀ i, st'.clientThread = .reading i → st.clientThread = .reading i ∨
      (0 < st.world.held i ∧ (st.world.sessions i).mConnected = true)) : Sound st' := by
  have halloc : ∀ i, Allocated st'.world i ↔ Allocated st.world i := by
    intro i
    rw [Allocated, Allocated, hev.next, hev.deleted]
  exact {
    unused := by
      intro i hc
      rw [hev.next]
      exact h.unused i (hev.mConnected i hc)
    counted := by
      intro i
      rw [hev.balance]
      exact h.counted i
    keyed := by
      intro k i hk
      rw [hev.mClientList] at hk
      rw [hev.mSocket]
      exact h.keyed k i hk
    registered := by
      intro k i hk
      rw [hev.mClientList] at hk
      exact (halloc i).mpr (h.registered k i hk)
    held := by
      intro i hi
      rw [halloc]
      rcases hev.held i hi with hi | hi
      · exact h.held i hi
      · exact h.inUse hi
    reading := by
      intro i hi
      rw [halloc]
      rcases hreading i hi with hi | ⟨hi, -⟩
      · exact h.reading i hi
      · exact h.held i hi
    deleted_lt := by
      intro i hi
      rw [hev.deleted] at hi
      rw [hev.next]
      exact h.deleted_lt i hi
    deleted_nodup := by
      rw [hev.deleted]
      exact h.deleted_nodup }

theorem sessions_connectClient (w : World) (sock : SOCKET) (sendMem recvMem : Nat → UInt8)
    (i : SessionId) :
    (w.connectClient sock sendMem recvMem).sessions i =
      if i = w.next then { ClientSession.new sock sendMem recvMem with mConnected := true }
      else w.sessions i := by
  by_cases hi : i = w.next
  · rw [if_pos hi, hi, World.connectClient, World.sessions_modify_self, World.createClient]
    simp only [if_true]
  · rw [if_neg hi, World.connectClient, World.modify, World.sessions_put_of_ne _ _ hi,
      World.createClient]
    simp only [if_neg hi]

theorem mClientList_connectClient (w : World) (sock : SOCKET) (sendMem recvMem : Nat → UInt8)
    (k : SOCKET) :
    (w.connectClient sock sendMem recvMem).mClientList[k]? =
      if sock = k ∧ w.mClientList[sock]? = none then some w.next else w.mClientList[k]? := by
  show (w.mClientList.insertIfNew sock w.next)[k]? = _
  rw [Std.TreeMap.getElem?_insertIfNew]
  simp only [compare_eq_iff_eq, Std.TreeMap.mem_iff_isSome_getElem?, Option.not_isSome_iff_eq_none]

/-- So does taking a socket. -/
theorem Sound.take (h : Sound st) {sock : SOCKET} {sendMem recvMem : Nat → UInt8}
    (hev : World.Evolves (fun i => i = st.world.next)
      (st.world.connectClient sock sendMem recvMem) st'.world)
    (hthread : st'.clientThread = .loopTop) : Sound st' := by
  have hnext : st'.world.next = st.world.next + 1 := hev.next
  have hdeleted : st'.world.deleted = st.world.deleted := hev.deleted
  have hsessions := sessions_connectClient st.world sock sendMem recvMem
  have hnew : st.world.next ∉ st.world.deleted := fun hmem =>
    Nat.lt_irrefl _ (h.deleted_lt _ hmem)
  have hlater : ∀ i, i < st.world.next → i < st'.world.next := by
    intro i hlt
    rw [hnext]
    exact Nat.lt_succ_of_lt hlt
  have hlast : st.world.next < st'.world.next := by
    rw [hnext]
    exact Nat.lt_succ_self _
  have hold : ∀ i, Allocated st.world i → Allocated st'.world i := by
    rintro i ⟨hlt, hnot⟩
    exact ⟨hlater i hlt, by rwa [hdeleted]⟩
  have hself : Allocated st'.world st.world.next := ⟨hlast, by rwa [hdeleted]⟩
  have hheld : st.world.held st.world.next = 0 := by
    by_contra hne
    exact Nat.lt_irrefl _ (h.held _ (Nat.pos_of_ne_zero hne)).1
  exact {
    unused := by
      intro i hc
      have hc' := hev.mConnected i hc
      rw [hsessions] at hc'
      split at hc'
      next hi =>
        rw [hi]
        exact hlast
      next => exact hlater i (h.unused i hc')
    counted := by
      intro i
      rw [hev.balance, World.balance, hsessions]
      by_cases hi : i = st.world.next
      · rw [if_pos hi, hi, show (st.world.connectClient sock sendMem recvMem).held st.world.next = 0
          from hheld]
        rfl
      · rw [if_neg hi]
        exact h.counted i
    keyed := by
      intro k i hk
      rw [hev.mClientList, mClientList_connectClient] at hk
      rw [hev.mSocket, hsessions]
      split at hk
      next hcond =>
        cases hk
        rw [if_pos rfl]
        exact hcond.1
      next =>
        have hlt := (h.registered k i hk).1
        rw [if_neg (Nat.ne_of_lt hlt)]
        exact h.keyed k i hk
    registered := by
      intro k i hk
      rw [hev.mClientList, mClientList_connectClient] at hk
      split at hk
      next =>
        cases hk
        exact hself
      next => exact hold i (h.registered k i hk)
    held := by
      intro i hi
      rcases hev.held i hi with hi | rfl
      · exact hold i (h.held i hi)
      · exact hself
    reading := by
      intro i hi
      rw [hthread] at hi
      cases hi
    deleted_lt := by
      intro i hi
      rw [hdeleted] at hi
      exact hlater i (h.deleted_lt i hi)
    deleted_nodup := by
      rw [hdeleted]
      exact h.deleted_nodup }

/-- So does a collection: what it deletes is counted for nothing. -/
theorem Sound.collect (h : Sound st) {ds : List SessionId}
    (hc : World.Collected st.world st'.world ds) (hthread : st'.clientThread = .dispatching) :
    Sound st' := by
  have hheld : ∀ i, st'.world.held i = st.world.held i := by
    intro i
    rw [World.held, World.held, World.tasks, World.tasks, hc.os, hc.scheduler]
  have hbalance : ∀ i, st'.world.balance i = st.world.balance i := by
    intro i
    rw [World.balance, World.balance, hheld, hc.sessions]
  have hkeep : ∀ i, Allocated st.world i → i ∉ ds → Allocated st'.world i := by
    rintro i ⟨hlt, hnot⟩ hds
    refine ⟨by rwa [hc.next], ?_⟩
    rw [hc.deleted, List.mem_append]
    rintro (hi | hi)
    · exact hds hi
    · exact hnot hi
  exact {
    unused := by
      intro i
      rw [hc.sessions, hc.next]
      exact h.unused i
    counted := by
      intro i
      rw [hbalance]
      exact h.counted i
    keyed := by
      intro k i hk
      rw [hc.sessions]
      exact h.keyed k i ((hc.mClientList_eq_some_iff h.keyed k i).mp hk).1
    registered := by
      intro k i hk
      obtain ⟨hk', hds⟩ := (hc.mClientList_eq_some_iff h.keyed k i).mp hk
      exact hkeep i (h.registered k i hk') hds
    held := by
      intro i hi
      rw [hheld] at hi
      refine hkeep i (h.held i hi) (fun hds => ?_)
      obtain ⟨hgarbage, -⟩ := hc.garbage i hds
      have hzero := h.counted i
      simp only [World.isGarbage, Bool.and_eq_true, decide_eq_true_eq] at hgarbage
      rw [World.balance, hgarbage.2] at hzero
      omega
    reading := by
      intro i hi
      rw [hthread] at hi
      cases hi
    deleted_lt := by
      intro i hi
      rw [hc.deleted] at hi
      rw [hc.next]
      rcases List.mem_append.mp hi with hi | hi
      · obtain ⟨-, k, hk⟩ := hc.garbage i hi
        exact (h.registered k i hk).1
      · exact h.deleted_lt i hi
    deleted_nodup := by
      rw [hc.deleted]
      refine List.nodup_append.mpr ⟨hc.nodup, h.deleted_nodup, ?_⟩
      rintro i hi j hj rfl
      obtain ⟨-, k, hk⟩ := hc.garbage i hi
      exact (h.registered k i hk).2 hj }

theorem Sound.step (h : Sound st) {a : Event} (hstep : st.step a = some st') : Sound st' := by
  cases step_change hstep with
  | accept sock _ hworld _ hthread =>
      -- accepting a socket changes no session
      obtain ⟨h₁, h₂, h₃, h₄, h₅, h₆, h₇, h₈⟩ := h
      rw [← hthread] at h₆
      exact ⟨hworld ▸ h₁, hworld ▸ h₂, hworld ▸ h₃, hworld ▸ h₄, hworld ▸ h₅, hworld ▸ h₆,
        hworld ▸ h₇, hworld ▸ h₈⟩
  | take sendMem recvMem sock _ hev _ hthread => exact h.take hev hthread
  | period currTick hworld _ hthread =>
      obtain ⟨ds, hc | heq⟩ := World.onPeriodWork_spec h.keyed currTick
      · rw [← hworld] at hc
        exact h.collect hc hthread
      · refine h.evolve (by rw [hworld, heq]; exact .refl _) (fun i hi => ?_)
        rw [hthread] at hi
        cases hi
  | evolve _ hev _ hreading => exact h.evolve hev hreading

theorem isInvariant_sound : system.IsInvariant System.always Sound where
  init := by
    rintro _ ⟨tick, answers, players, rfl⟩
    exact sound_new tick answers players
  step _ _ _ _ h _ hstep := h.step hstep

theorem sound_of_reachable (h : system.Reachable st) : Sound st := isInvariant_sound.holds h

/-! ## Reference counts -/

/-- **Reference counts.**  In every reachable state the count of every
    allocated session is the number of its outstanding receives, of its
    outstanding sends and of its queued tasks; no session is deleted twice, and
    nothing outstanding, queued or being read is a deleted session's. -/
theorem refCount_eq_outstanding (st : Server) (h : system.Reachable st) :
    (∀ i, Allocated st.world i →
        (st.world.sessions i).mRefCount =
          st.world.os.recvs.countP (fun p => p.owner = i)
            + st.world.os.sends.countP (fun p => p.owner = i)
            + st.world.scheduler.mTaskQueue.toList.countP (fun e => e.mOwner = i)) ∧
      st.world.deleted.Nodup ∧
      (∀ post ∈ st.world.os.recvs, Allocated st.world post.owner) ∧
      (∀ post ∈ st.world.os.sends, Allocated st.world post.owner) ∧
      (∀ e ∈ st.world.scheduler.mTaskQueue, Allocated st.world e.mOwner) ∧
      ∀ i, st.clientThread = .reading i → Allocated st.world i := by
  have hsound := sound_of_reachable h
  refine ⟨fun i _ => ?_, hsound.deleted_nodup, fun post hpost => ?_, fun post hpost => ?_,
    fun e he => ?_, hsound.reading⟩
  · have hzero := hsound.counted i
    rw [World.balance, World.held, Os.posted, World.tasks] at hzero
    omega
  · have hpos : 0 < st.world.os.recvs.countP (fun p => p.owner = post.owner) :=
      List.countP_pos_iff.mpr ⟨post, hpost, decide_eq_true rfl⟩
    refine hsound.held _ ?_
    rw [World.held, Os.posted]
    omega
  · have hpos : 0 < st.world.os.sends.countP (fun p => p.owner = post.owner) :=
      List.countP_pos_iff.mpr ⟨post, hpost, decide_eq_true rfl⟩
    refine hsound.held _ ?_
    rw [World.held, Os.posted]
    omega
  · have hpos : 0 < st.world.tasks e.mOwner :=
      List.countP_pos_iff.mpr ⟨e, he, decide_eq_true rfl⟩
    refine hsound.held _ ?_
    rw [World.held]
    omega

/-- A player who has logged in: a receive, the login result on its way, the
    heartbeat and the periodic update. -/
theorem refCount_eq_outstanding_login :
    ∃ st, system.Reachable st ∧ (st.world.sessions 0).mRefCount = 1 + 1 + 2 := by
  have hrun : (system.run
      (new 0 (fun _ => true) (fun p => if p = 7 then some ⟨[65], 0, 0, 0, []⟩ else none))
      [.accept 5, .produceAccepted, .takeAccepted (fun _ => 0) (fun _ => 0), .flush,
        .recvCompletion ⟨0, 0, BUFSIZE⟩ false [8, 0, 1, 0, 7, 0, 0, 0], .read, .produceRequest,
        .consumeRequest, .execute false, .produceResult, .read, .timer 100, .task, .period 100,
        .dispatch, .produceRequest, .dispatch, .wake, .flush]).map
      (fun st => (st.world.next, st.world.deleted,
        st.world.os.recvs.countP (fun p => p.owner = 0),
        st.world.os.sends.countP (fun p => p.owner = 0),
        st.world.scheduler.mTaskQueue.toList.countP (fun e => e.mOwner = 0)))
        = some (1, [], 1, 1, 2) := by decide +kernel
  obtain ⟨st, hst, hall⟩ := Option.map_eq_some_iff.mp hrun
  simp only [Prod.mk.injEq] at hall
  obtain ⟨hnext, hdeleted, hrecvs, hsends, htasks⟩ := hall
  have hreach : system.Reachable st := .run (.init ⟨_, _, _, rfl⟩) hst
  have halloc : Allocated st.world 0 := ⟨by rw [hnext]; decide, by rw [hdeleted]; decide⟩
  have hcount := (refCount_eq_outstanding st hreach).1 0 halloc
  rw [hrecvs, hsends, htasks] at hcount
  exact ⟨st, hreach, hcount⟩

end Server
end EasyGameServer
