/-
  EasyGameServer.Server.LoginRouting

  Who gets logged in.  A load job carries the raw socket of the session that
  pushed it, and its result goes to whichever connected session is registered
  under that socket by then.  As long as that is a session older than the job
  it is the pusher: connected sessions have different sockets, and no session
  is created while a packet is being read.
-/

import EasyGameServer.Server.Jobs
import EasyGameServer.Lib.History

namespace EasyGameServer

open Lib

namespace Server

/-! ## Handle values -/

/-- The sockets of connected sessions and those still waiting to become a
    session's are open, and no two of them are the same. -/
structure Handles (w : World) (pending : List SOCKET) : Prop where
  opened : ∀ i, (w.sessions i).mConnected = true → (w.sessions i).mSocket ∈ w.os.opened
  distinct : ∀ i j, (w.sessions i).mConnected = true → (w.sessions j).mConnected = true →
    (w.sessions i).mSocket = (w.sessions j).mSocket → i = j
  pendingOpened : ∀ k ∈ pending, k ∈ w.os.opened
  pendingNodup : pending.Nodup
  pendingFresh : ∀ i, (w.sessions i).mConnected = true → (w.sessions i).mSocket ∉ pending

theorem Handles.evolve {P : SessionId → Prop} {w w' : World} {pending : List SOCKET}
    (h : Handles w pending) (hev : World.Evolves P w w') : Handles w' pending where
  opened i hc := by
    have hc₀ := hev.mConnected i hc
    by_contra hclosed
    rw [hev.mSocket] at hclosed
    obtain ⟨j, hsock, hconn, hdisc⟩ := hev.closed _ (h.opened i hc₀) hclosed
    rw [h.distinct i j hc₀ hconn hsock.symm] at hc
    exact absurd (hc.symm.trans hdisc) (by decide)
  distinct i j hi hj hsock := by
    rw [hev.mSocket, hev.mSocket] at hsock
    exact h.distinct i j (hev.mConnected i hi) (hev.mConnected j hj) hsock
  pendingOpened k hk := by
    by_contra hclosed
    obtain ⟨j, hsock, hconn, -⟩ := hev.closed k (h.pendingOpened k hk) hclosed
    rw [← hsock] at hk
    exact h.pendingFresh j hconn hk
  pendingNodup := h.pendingNodup
  pendingFresh i hc := by
    rw [hev.mSocket]
    exact h.pendingFresh i (hev.mConnected i hc)

theorem Handles.connect {w : World} {sock : SOCKET} {pending : List SOCKET}
    (h : Handles w (sock :: pending)) (sendMem recvMem : Nat → UInt8) :
    Handles (w.connectClient sock sendMem recvMem) pending := by
  obtain ⟨hnot, hnodup⟩ := List.nodup_cons.mp h.pendingNodup
  have hsessions := sessions_connectClient w sock sendMem recvMem
  -- every connected session is the new one on the new socket, or an old one on another
  have hcases : ∀ i, ((w.connectClient sock sendMem recvMem).sessions i).mConnected = true →
      (i = w.next ∧ ((w.connectClient sock sendMem recvMem).sessions i).mSocket = sock) ∨
        ((w.sessions i).mConnected = true ∧
          ((w.connectClient sock sendMem recvMem).sessions i).mSocket
            = (w.sessions i).mSocket ∧ (w.sessions i).mSocket ≠ sock) := by
    intro i hc
    rw [hsessions] at hc ⊢
    by_cases hi : i = w.next
    · rw [if_pos hi]
      exact Or.inl ⟨hi, rfl⟩
    · rw [if_neg hi] at hc ⊢
      refine Or.inr ⟨hc, rfl, fun heq => ?_⟩
      exact h.pendingFresh i hc (heq ▸ List.mem_cons_self)
  refine ⟨?_, ?_, fun k hk => h.pendingOpened k (List.mem_cons_of_mem _ hk), hnodup, ?_⟩
  · intro i hc
    rcases hcases i hc with ⟨-, hsock⟩ | ⟨hc₀, hsock, -⟩
    · rw [hsock]
      exact h.pendingOpened sock List.mem_cons_self
    · rw [hsock]
      exact h.opened i hc₀
  · intro i j hi hj heq
    rcases hcases i hi with ⟨hi, hsi⟩ | ⟨hi, hsi, hnei⟩
    · rcases hcases j hj with ⟨hj, hsj⟩ | ⟨hj, hsj, hnej⟩
      · exact hi.trans hj.symm
      · exact absurd (hsj.symm.trans (heq.symm.trans hsi)) hnej
    · rcases hcases j hj with ⟨hj, hsj⟩ | ⟨hj, hsj, hnej⟩
      · exact absurd (hsi.symm.trans (heq.trans hsj)) hnei
      · exact h.distinct i j hi hj (hsi.symm.trans (heq.trans hsj))
  · intro i hc hmem
    rcases hcases i hc with ⟨-, hsock⟩ | ⟨hc₀, hsock, -⟩
    · rw [hsock] at hmem
      exact hnot hmem
    · rw [hsock] at hmem
      exact h.pendingFresh i hc₀ (List.mem_cons_of_mem _ hmem)

theorem Handles.accept {w w' : World} {sock : SOCKET} {pending : List SOCKET}
    (h : Handles w pending) (hfresh : sock ∉ w.os.opened) (hsessions : w'.sessions = w.sessions)
    (hopened : w'.os.opened = sock :: w.os.opened) : Handles w' (pending ++ [sock]) where
  opened i hc := by
    rw [hsessions] at hc ⊢
    rw [hopened]
    exact List.mem_cons_of_mem _ (h.opened i hc)
  distinct i j hi hj := by
    rw [hsessions] at hi hj ⊢
    exact h.distinct i j hi hj
  pendingOpened k hk := by
    rw [hopened]
    rcases List.mem_append.mp hk with hk | hk
    · exact List.mem_cons_of_mem _ (h.pendingOpened k hk)
    · rw [List.mem_singleton.mp hk]
      exact List.mem_cons_self
  pendingNodup := by
    refine List.nodup_append.mpr ⟨h.pendingNodup, List.pairwise_singleton _ _, ?_⟩
    rintro k hk k' hk' rfl
    rw [List.mem_singleton] at hk'
    exact hfresh (hk' ▸ h.pendingOpened k hk)
  pendingFresh i hc hmem := by
    rw [hsessions] at hc hmem
    rcases List.mem_append.mp hmem with hmem | hmem
    · exact h.pendingFresh i hc hmem
    · exact hfresh (List.mem_singleton.mp hmem ▸ h.opened i hc)

/-! ## Sessions a step leaves behind -/

/-- What has been said of older sessions stays true. -/
structure Ages (w w' : World) : Prop where
  next : w.next ≤ w'.next
  mSocket : ∀ i, i < w.next → (w'.sessions i).mSocket = (w.sessions i).mSocket
  mConnected : ∀ i, i < w.next → (w'.sessions i).mConnected = true →
    (w.sessions i).mConnected = true

variable {st st' : Server}

theorem ages_of_sessions {w w' : World} (hnext : w'.next = w.next)
    (hsessions : w'.sessions = w.sessions) : Ages w w' where
  next := Nat.le_of_eq hnext.symm
  mSocket i _ := by rw [hsessions]
  mConnected i _ hc := by rwa [hsessions] at hc

theorem ages_of_evolves {P : SessionId → Prop} {w w' : World} (hev : World.Evolves P w w') :
    Ages w w' where
  next := Nat.le_of_eq hev.next.symm
  mSocket i _ := hev.mSocket i
  mConnected i _ := hev.mConnected i

theorem ages_of_step {a : Event} (h : st.step a = some st') (hkeyed : st.world.Keyed) :
    Ages st.world st'.world := by
  cases step_change h with
  | accept sock _ hworld _ _ =>
      rw [hworld]
      exact ages_of_sessions rfl rfl
  | take sendMem recvMem sock _ hev _ _ =>
      have hold : ∀ i, i < st.world.next →
          (st.world.connectClient sock sendMem recvMem).sessions i = st.world.sessions i := by
        intro i hlt
        rw [sessions_connectClient, if_neg (Nat.ne_of_lt hlt)]
      refine ⟨?_, ?_, ?_⟩
      · rw [hev.next]
        exact Nat.le_succ _
      · intro i hlt
        rw [hev.mSocket, hold i hlt]
      · intro i hlt hc
        rw [← hold i hlt]
        exact hev.mConnected i hc
  | period currTick hworld _ _ =>
      rw [hworld]
      obtain ⟨ds, hc | heq⟩ := World.onPeriodWork_spec hkeyed currTick
      · exact ages_of_sessions hc.next hc.sessions
      · rw [heq]
        exact ages_of_sessions rfl rfl
  | evolve _ hev _ _ => exact ages_of_evolves hev

/-! ## Histories -/

/-- Whoever was logged in had asked for it before. -/
def Authorized (trace : List Note) : Prop :=
  ∀ l₁ i pid l₂, trace = l₁ ++ .loginDone i pid :: l₂ → World.Asked l₁ i pid

theorem asked_append {trace ns : List Note} {i : SessionId} {pid : Int32}
    (h : World.Asked trace i pid) : World.Asked (trace ++ ns) i pid := by
  obtain ⟨bytes, hmem, hpid⟩ := h
  exact ⟨bytes, List.mem_append_left _ hmem, hpid⟩

theorem authorized_iff_justified (trace : List Note) :
    Authorized trace ↔
      Justified (fun l₁ n => ∀ i pid, n = .loginDone i pid → World.Asked l₁ i pid) trace :=
  ⟨fun h l₁ _ l₂ heq i pid hn => h l₁ i pid l₂ (hn ▸ heq),
    fun h l₁ i pid l₂ heq => h l₁ _ l₂ heq i pid rfl⟩

theorem Authorized.goesOn {trace trace' : List Note} (h : Authorized trace)
    (hgo : World.GoesOn trace trace') : Authorized trace' := by
  obtain ⟨ns, rfl, hno⟩ := hgo
  rw [authorized_iff_justified] at h ⊢
  refine h.append_of_mem (fun n hn _ i pid heq => ?_)
  exact absurd (heq ▸ hn) (hno i pid)

theorem Authorized.login {trace : List Note} (h : Authorized trace) {i : SessionId} {pid : Int32}
    (hasked : World.Asked trace i pid) : Authorized (trace ++ [.loginDone i pid]) := by
  rw [authorized_iff_justified] at h ⊢
  refine h.concat (fun i' pid' heq => ?_)
  cases heq
  exact hasked

/-! ## The invariant -/

/-- A load job can only be taken for its pusher, among the sessions older than
    it, and the pusher has asked for it. -/
structure Routed (w : World) (t : Ticket) : Prop where
  born : t.born ≤ w.next
  pusher : ∀ i, i < t.born → (w.sessions i).mConnected = true →
    (w.sessions i).mSocket = t.job.mSockKey → i = t.pushedBy
  asked : World.Asked w.trace t.pushedBy t.job.playerId

theorem Routed.age {w w' : World} {t : Ticket} (h : Routed w t) (hage : Ages w w')
    (htrace : ∃ ns, w'.trace = w.trace ++ ns) : Routed w' t where
  born := Nat.le_trans h.born hage.next
  pusher i hi hc hsock := by
    have hlt := Nat.lt_of_lt_of_le hi h.born
    rw [hage.mSocket i hlt] at hsock
    exact h.pusher i hi (hage.mConnected i hlt hc) hsock
  asked := by
    obtain ⟨ns, hns⟩ := htrace
    rw [hns]
    exact asked_append h.asked

structure LoginInv (st : Server) : Prop where
  handles : Handles st.world st.pending
  reader : ∀ i, st.clientThread = .reading i → ∀ j, (st.world.sessions j).mConnected = true →
    (st.world.sessions j).mSocket = (st.world.sessions i).mSocket → j = i
  routed : ∀ t ∈ st.jobs, t.job.isLoad = true → Routed st.world t
  authorized : Authorized st.world.trace

/-- The result of a load job goes to no session younger than the job. -/
def DispatchesToOlder (st : Server) : Event → Prop
  | .dispatch => ∀ t q, st.mDbJobResultQueue.consume = some (t, q) → t.job.isLoad = true →
      t.job.mSuccess = true → ∀ client, st.world.mClientList[t.job.mSockKey]? = some client →
        (st.world.sessions client).mConnected = true → client < t.born
  | _ => True

theorem handles_step {a : Event} (h : Handles st.world st.pending)
    (hstep : st.step a = some st') (hkeyed : st.world.Keyed) : Handles st'.world st'.pending := by
  cases step_change hstep with
  | accept sock hfresh hworld hpending _ =>
      rw [hpending]
      exact h.accept hfresh (by rw [hworld]) (by rw [hworld])
  | take sendMem recvMem sock _ hev hpending _ =>
      rw [hpending] at h
      exact (h.connect sendMem recvMem).evolve hev
  | period currTick hworld hpending _ =>
      rw [hpending, hworld]
      obtain ⟨ds, hc | heq⟩ := World.onPeriodWork_spec hkeyed currTick
      · obtain ⟨h₁, h₂, h₃, h₄, h₅⟩ := h
        refine ⟨?_, ?_, ?_, h₄, ?_⟩
        · rw [hc.sessions, hc.os]
          exact h₁
        · rw [hc.sessions]
          exact h₂
        · rw [hc.os]
          exact h₃
        · rw [hc.sessions]
          exact h₅
      · rw [heq]
        exact h
  | evolve _ hev hpending _ =>
      rw [hpending]
      exact h.evolve hev

theorem reader_step {a : Event} (h : LoginInv st) (hstep : st.step a = some st')
    (i : SessionId) (hi : st'.clientThread = .reading i) (j : SessionId)
    (hj : (st'.world.sessions j).mConnected = true)
    (hsock : (st'.world.sessions j).mSocket = (st'.world.sessions i).mSocket) : j = i := by
  cases step_change hstep with
  | accept sock _ hworld _ hthread =>
      rw [hworld] at hj hsock
      exact h.reader i (hthread.symm.trans hi) j hj hsock
  | take _ _ sock _ _ _ hthread => exact nomatch hthread.symm.trans hi
  | period currTick _ _ hthread => exact nomatch hthread.symm.trans hi
  | evolve _ hev _ hreading =>
      rw [hev.mSocket, hev.mSocket] at hsock
      have hj₀ := hev.mConnected j hj
      rcases hreading i hi with hi₀ | ⟨-, hi₀⟩
      · exact h.reader i hi₀ j hj₀ hsock
      · -- reading starts connected
        exact h.handles.distinct j i hj₀ hi₀ hsock

/-- What a dispatch adds to the history. -/
theorem trace_dispatch {w w' : World} {job : DatabaseJobContext}
    (h : w.dispatchDatabaseJobResult job = some w') :
    w'.trace = w.trace ∨ ∃ client, job.isLoad = true ∧ job.mSuccess = true ∧
      w.mClientList[job.mSockKey]? = some client ∧
      (w.sessions client).mConnected = true ∧ (w.sessions client).mSocket = job.mSockKey ∧
      World.GoesOn (w.trace ++ [.loginDone client job.playerId]) w'.trace := by
  rcases World.dispatchDatabaseJobResult_cases h with
    heq | ⟨client, login, hok, hdata, hreg, hconn, hsock, heq⟩
  · rw [heq]
    exact Or.inl rfl
  · have hplayer : job.playerId = login.mPlayerId := by rw [DatabaseJobContext.playerId, hdata]
    refine Or.inr ⟨client, by rw [DatabaseJobContext.isLoad, hdata], hok, hreg, hconn, hsock, ?_⟩
    rw [heq, hplayer]
    rcases World.loginDone_cases w client login.mPlayerId (doubleToFloat login.mPosX)
      (doubleToFloat login.mPosY) login.mPlayerName with hsilent | ⟨t, -, -, hpush⟩
    · exact hsilent.trace
    · exact hpush.trace

theorem routed_step {a : Event} (h : LoginInv st) (hstep : st.step a = some st')
    (hkeyed : st.world.Keyed) (t : Ticket) (ht : t ∈ st'.jobs) (hload : t.job.isLoad = true) :
    Routed st'.world t := by
  have hage := ages_of_step hstep hkeyed
  cases step_jobs hstep with
  | move _ hjobs _ _ htrace =>
      obtain ⟨ns, hns, -⟩ := htrace
      rw [hjobs] at ht
      exact (h.routed t ht hload).age hage ⟨ns, hns⟩
  | push _ t' _ hjobs _ _ htrace hpushed =>
      obtain ⟨ns, hns, -⟩ := htrace
      rw [hjobs] at ht
      rcases List.mem_append.mp ht with ht | ht
      · exact (h.routed t ht hload).age hage ⟨ns, hns⟩
      · rw [List.mem_singleton.mp ht] at hload ⊢
        obtain ⟨hthread, hborn, hsock, hasked⟩ := hpushed hload
        refine ⟨?_, fun i hi hc hkey => ?_, hasked⟩
        · rw [hborn]
          exact hage.next
        · -- no other connected session has the socket of the one being read
          rw [hborn] at hi
          rw [hage.mSocket i hi, hsock] at hkey
          exact h.reader t'.pushedBy hthread i (hage.mConnected i hi hc) hkey
  | dispatch t' rest js _ hdispatch hjobs hjobs' _ _ _ hupdates =>
      have htrace : ∃ ns, st'.world.trace = st.world.trace ++ ns := by
        rcases trace_dispatch hdispatch with heq | ⟨client, -, -, -, -, -, ns, hns, -⟩
        · exact ⟨[], by rw [heq, List.append_nil]⟩
        · exact ⟨_, hns.trans (List.append_assoc ..)⟩
      rw [hjobs'] at ht
      rcases List.mem_append.mp ht with ht | ht
      · have ht' : t ∈ st.jobs := hjobs ▸ List.mem_cons_of_mem _ ht
        exact (h.routed t ht' hload).age hage htrace
      · exact absurd (hload.symm.trans (hupdates t ht)) (by decide)
  | execute _ t' job before after hworld hjobs hjobs' hsock hplayer hsame =>
      rw [hworld]
      rw [hjobs'] at ht
      have hall := h.routed
      rw [hjobs] at hall
      rcases List.mem_append.mp ht with ht | ht
      · exact hall t (List.mem_append_left _ ht) hload
      · rcases List.mem_cons.mp ht with rfl | ht
        · -- an executed job is still about the same player and socket
          obtain ⟨hborn, hpusher, hasked⟩ := hall t'
            (List.mem_append_right _ List.mem_cons_self) (hsame.symm.trans hload)
          refine ⟨hborn, fun i hi hc hkey => hpusher i hi hc (hkey.trans hsock), ?_⟩
          show World.Asked _ _ job.playerId
          rw [hplayer]
          exact hasked
        · exact hall t (List.mem_append_right _ (List.mem_cons_of_mem _ ht)) hload

theorem authorized_step {a : Event} (h : LoginInv st) (hok : DispatchesToOlder st a)
    (hstep : st.step a = some st') : Authorized st'.world.trace := by
  cases step_jobs hstep with
  | move _ _ _ _ htrace => exact h.authorized.goesOn htrace
  | push _ _ _ _ _ _ htrace _ => exact h.authorized.goesOn htrace
  | dispatch t rest js hconsume hdispatch hjobs _ _ _ _ _ =>
      rcases trace_dispatch hdispatch with heq | ⟨client, hload, hsucc, hreg, hconn, hsock, hgo⟩
      · rw [heq]
        exact h.authorized
      · obtain ⟨q, hq⟩ := hconsume
        have hrouted := h.routed t (hjobs ▸ List.mem_cons_self) hload
        have holder := hok t q hq hload hsucc client hreg hconn
        have hpusher := hrouted.pusher client holder hconn hsock
        refine (h.authorized.login ?_).goesOn hgo
        rw [hpusher]
        exact hrouted.asked
  | execute _ _ _ _ _ hworld _ _ _ _ _ =>
      rw [hworld]
      exact h.authorized

theorem loginInv_new (tick : UInt32) (answers : Nat → Bool) (players : Players) :
    LoginInv (new tick answers players) where
  handles :=
    { opened := fun _ hc => nomatch hc
      distinct := fun _ _ hc => nomatch hc
      pendingOpened := fun _ hk => absurd hk List.not_mem_nil
      pendingNodup := List.nodup_nil
      pendingFresh := fun _ hc => nomatch hc }
  reader _ hi := nomatch hi
  routed _ ht := absurd ht List.not_mem_nil
  authorized l₁ i pid l₂ heq := by
    have hnil : l₁ ++ Note.loginDone i pid :: l₂ = [] := heq.symm
    exact absurd (List.append_eq_nil_iff.mp hnil).2 (by simp)

theorem isInvariant_login : system.IsInvariant DispatchesToOlder LoginInv where
  init := by
    rintro _ ⟨tick, answers, players, rfl⟩
    exact loginInv_new tick answers players
  step _ _ _ hr h hok hstep := by
    have hkeyed := (sound_of_reachable hr.reachable).keyed
    exact ⟨handles_step h.handles hstep hkeyed, reader_step h hstep, routed_step h hstep hkeyed,
      authorized_step h hok hstep⟩

/-- **Login routing.**  In every run in which no result of a load job goes to
    a session created after the job was pushed, a session is logged in as a
    player only after a login packet for that player was read from it. -/
theorem loginDone_asked (st : Server) (h : system.ReachableBy DispatchesToOlder st)
    (l₁ l₂ : List Note) (i : SessionId) (pid : Int32)
    (htrace : st.world.trace = l₁ ++ .loginDone i pid :: l₂) : World.Asked l₁ i pid :=
  (isInvariant_login.holds h).authorized l₁ i pid l₂ htrace

/-- One player, seven, and its name. -/
def onePlayer : Players := fun pid => if pid = 7 then some ⟨[65], 0, 0, 0, []⟩ else none

/-- A client logs in and stays. -/
theorem loginDone_asked_stays :
    ∃ st, system.ReachableBy DispatchesToOlder st ∧
      st.world.trace = [.parsed 0 .pktCsLogin [8, 0, 1, 0, 7, 0, 0, 0]] ++ [.loginDone 0 7] ∧
      World.Asked [.parsed 0 .pktCsLogin [8, 0, 1, 0, 7, 0, 0, 0]] 0 7 := by
  have hrun : (system.run (new 0 (fun _ => true) onePlayer)
      [.accept 5, .produceAccepted, .takeAccepted (fun _ => 0) (fun _ => 0), .flush,
        .recvCompletion ⟨0, 0, BUFSIZE⟩ false [8, 0, 1, 0, 7, 0, 0, 0], .read, .produceRequest,
        .consumeRequest, .execute false, .produceResult, .read, .timer 100, .task,
        .period 100]).bind
      (fun st => (system.step st .dispatch).map (fun st' =>
        (st.mDbJobResultQueue.consume.map (fun r => (r.1.born, r.1.job.mSockKey)),
          st.world.mClientList[5]?, st'.world.trace)))
      = some (some (1, 5), some 0,
          [.parsed 0 .pktCsLogin [8, 0, 1, 0, 7, 0, 0, 0], .loginDone 0 7]) := by
    decide +kernel
  obtain ⟨st, hst, hrun⟩ := Option.bind_eq_some_iff.mp hrun
  obtain ⟨st', hstep, hall⟩ := Option.map_eq_some_iff.mp hrun
  simp only [Prod.mk.injEq] at hall
  obtain ⟨hjob, hreg, htrace⟩ := hall
  have hready : system.ReachableBy DispatchesToOlder st :=
    .run (.init ⟨_, _, _, rfl⟩) (by simp [DispatchesToOlder]) hst
  have hok : DispatchesToOlder st .dispatch := by
    rintro t q hq - - client hclient -
    rw [hq] at hjob
    obtain ⟨hborn, hsock⟩ := Prod.mk.inj (Option.some.inj hjob)
    rw [hborn]
    rw [hsock, hreg] at hclient
    rw [← Option.some.inj hclient]
    decide
  have hdone := hready.step hok hstep
  exact ⟨st', hdone, htrace, loginDone_asked st' hdone _ [] 0 7 htrace⟩

/-- A client asks to be logged in and is disconnected by an error; its session
    is collected, and its handle value goes to another client, who is logged
    in instead. -/
theorem loginDone_not_asked :
    ∃ st l₁ i pid l₂, system.Reachable st ∧ st.world.trace = l₁ ++ .loginDone i pid :: l₂ ∧
      ¬ World.Asked l₁ i pid := by
  have hrun : (system.run (new 0 (fun _ => true) onePlayer)
      [.accept 5, .produceAccepted, .takeAccepted (fun _ => 0) (fun _ => 0), .flush,
        .recvCompletion ⟨0, 0, BUFSIZE⟩ false [8, 0, 1, 0, 7, 0, 0, 0], .read, .produceRequest,
        .consumeRequest, .read, .recvCompletion ⟨0, 0, BUFSIZE⟩ true [],
        .timer 2000, .task, .period 2000, .dispatch, .wake,
        .accept 5, .produceAccepted, .takeAccepted (fun _ => 0) (fun _ => 0), .flush,
        .execute false, .produceResult, .timer 3000, .task, .period 3000, .dispatch]).map
      (fun st => st.world.trace)
      = some [.parsed 0 .pktCsLogin [8, 0, 1, 0, 7, 0, 0, 0], .loginDone 1 7] := by
    decide +kernel
  obtain ⟨st, hst, htrace⟩ := Option.map_eq_some_iff.mp hrun
  refine ⟨st, [.parsed 0 .pktCsLogin [8, 0, 1, 0, 7, 0, 0, 0]], 1, 7, [],
    .run (.init ⟨_, _, _, rfl⟩) hst, htrace, ?_⟩
  rintro ⟨bytes, hmem, -⟩
  cases List.mem_singleton.mp hmem

end Server
end EasyGameServer
