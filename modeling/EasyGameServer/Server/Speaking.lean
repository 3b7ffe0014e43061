/-
  EasyGameServer.Server.Speaking

  Who may speak.  The CHAT and MOVE handlers ask only whether a packet names
  the session's player, and the player of a session that nobody has been
  logged in on is −1, which a packet can name.  In every run in which no packet
  does that, a session's first broadcast and first move come after its login,
  and every broadcast is in the name of the player `LoginDone` made of its
  sender.
-/

import EasyGameServer.Server.Play
import EasyGameServer.Server.Saves
import EasyGameServer.TcpClient

namespace EasyGameServer

open Lib

namespace Server

/-- No session reads a CHAT or a MOVE in the name of player −1 before it has
    been logged in. -/
def NamesSomebody (st : Server) : Event → Prop
  | .read => ∀ this r bytes, st.clientThread = .reading this → World.Reads st.world this r bytes →
      r ≠ .login → (st.world.sessions this).mLogon = false → World.claimedPlayerId bytes ≠ -1
  | _ => True

/-- No row of the table has pid −1. -/
def Nobody (st : Server) : Prop := st.players (-1) = none

/-- A broadcast in the name of the player its sender was by then. -/
def InItsName (l : List Note) (n : Note) : Prop :=
  ∀ i pkt, n = .broadcast i pkt → (playOf l i).player = some pkt.mPlayerId ∧ pkt.mPlayerId ≠ -1

structure Spoken (w : World) : Prop where
  somebody : ∀ i pid, (playOf w.trace i).player = some pid → pid ≠ -1
  origin : ∀ i, (playOf w.trace i).player = none →
    (w.sessions i).mPosX = 0 ∧ (w.sessions i).mPosY = 0
  inItsName : Justified InItsName w.trace

variable {st st' : Server}

theorem spoken_new (tick : UInt32) (answers : Nat → Bool) (players : Players) :
    Spoken (new tick answers players).world :=
  ⟨fun _ _ h => (Option.some_ne_none _ h.symm).elim, fun _ _ => ⟨rfl, rfl⟩, .nil⟩

/-- Who reads a CHAT or MOVE in its own name has been logged in. -/
theorem player_of_reads {this : SessionId} {r : World.Registered} {bytes : List UInt8}
    (hknown : Known st.world) (hok : NamesSomebody st .read)
    (hthread : st.clientThread = .reading this) (hreads : World.Reads st.world this r bytes)
    (hr : r ≠ .login)
    (hpid : World.claimedPlayerId bytes = (st.world.sessions this).mPlayerId) :
    (playOf st.world.trace this).player = some (st.world.sessions this).mPlayerId := by
  obtain ⟨hplayer, hlogon⟩ := hknown.knows this
  cases hp : (playOf st.world.trace this).player with
  | some pid =>
      rw [hp] at hplayer
      exact congrArg some hplayer.symm
  | none =>
      rw [hp] at hplayer hlogon
      exact absurd (hpid.trans hplayer) (hok this r bytes hthread hreads hr hlogon)

namespace Spoken

variable {w w' : World} {this : SessionId}

theorem origin_of_profile (h : Spoken w) {s : ClientSession} {i : SessionId}
    (hprofile : s.profile = (w.sessions i).profile) (hi : (playOf w.trace i).player = none) :
    s.mPosX = 0 ∧ s.mPosY = 0 := by
  obtain ⟨hx, hy⟩ := h.origin i hi
  exact ⟨(congrArg Profile.mPosX hprofile).trans hx, (congrArg Profile.mPosY hprofile).trans hy⟩

/-- A step that leaves the history alone. -/
theorem of_trace (h : Spoken w) (htrace : w'.trace = w.trace)
    (horigin : ∀ i, (playOf w.trace i).player = none →
      (w'.sessions i).mPosX = 0 ∧ (w'.sessions i).mPosY = 0) : Spoken w' := by
  refine ⟨?_, ?_, ?_⟩
  · rw [htrace]
    exact h.somebody
  · rw [htrace]
    exact horigin
  · rw [htrace]
    exact h.inItsName

section Heard

variable {r : World.Registered} {bytes : List UInt8} (h : Spoken w)
  (hheard : World.Heard w w' this r bytes)
  (hself : r ≠ .login → World.claimedPlayerId bytes = (w.sessions this).mPlayerId →
    (playOf w.trace this).player = some (w.sessions this).mPlayerId)

include h hheard hself

theorem origin_heard {i : SessionId} (hi : (playOf w.trace i).player = none) :
    (w'.sessions i).mPosX = 0 ∧ (w'.sessions i).mPosY = 0 := by
  have hprofile := hheard.profile i
  split at hprofile
  next hmoved =>
    -- whoever moves in its own name is somebody
    obtain ⟨rfl, rfl, hpid⟩ := hmoved
    cases hi.symm.trans (hself (by decide) hpid)
  next => exact h.origin_of_profile hprofile hi

/-- What a handler broadcasts is in the name of the player it reads for. -/
theorem inItsName_heard : Justified InItsName w'.trace := by
  obtain ⟨ns, htrace, hns⟩ := hheard.trace
  rw [htrace]
  refine h.inItsName.append ?_
  rintro n₁ _ n₂ heq i pkt rfl
  cases n₁ with
  | nil => cases heq
  | cons n n₁ =>
      obtain ⟨rfl, hrest⟩ := List.cons.inj heq
      have hmem : Note.broadcast i pkt ∈ ns := by
        rw [hrest]
        exact List.mem_append_right _ List.mem_cons_self
      obtain ⟨hr, hpid, pkt', hcast, hname⟩ := hns _ hmem
      cases hcast
      have hsome := hself hr hpid
      rw [hname]
      refine ⟨?_, h.somebody _ _ hsome⟩
      rw [playOf_append, player_foldl_next]
      · exact hsome
      · intro j pid hj
        rcases List.mem_cons.mp hj with heq | hj
        · cases heq
        · obtain ⟨-, -, pkt', heq, -⟩ := hns (.loginDone j pid) (by
            rw [hrest]
            exact List.mem_append_left _ hj)
          cases heq

theorem read : Spoken w' where
  somebody i pid hi := h.somebody i pid ((player_heard hheard i).symm.trans hi)
  origin i hi := origin_heard h hheard hself ((player_heard hheard i).symm.trans hi)
  inItsName := inItsName_heard h hheard hself

end Heard

/-- `LoginDone` makes the session somebody. -/
theorem loggedIn (h : Spoken w) {pid : Int32} {x y : CFloat} {name : CString maxNameLen}
    (hlogged : World.LoggedIn w w' this pid x y name) (hpid : pid ≠ -1) : Spoken w' := by
  refine ⟨fun i pid' hi => ?_, fun i hi => ?_, ?_⟩
  · rw [playOf_loggedIn hlogged] at hi
    split at hi
    next =>
      cases hi
      exact hpid
    next => exact h.somebody i pid' hi
  · have hprofile := hlogged.profile i
    rw [playOf_loggedIn hlogged] at hi
    split at hi
    next => cases hi
    next hnot =>
      have hne : i ≠ this := by
        rintro rfl
        refine hnot ⟨rfl, fun hc => ?_⟩
        cases hi.symm.trans hc
      rw [if_neg hne] at hprofile
      exact h.origin_of_profile hprofile hi
  · rw [hlogged.trace]
    refine h.inItsName.concat (fun i pkt heq => ?_)
    cases heq

theorem step {a : Event} (h : Spoken st.world) (hknown : Known st.world)
    (hloaded : ∀ t ∈ st.results, t.job.isLoad = true → t.job.mSuccess = true →
      t.job.playerId ≠ -1) (hok : NamesSomebody st a) (hstep : st.step a = some st') :
    Spoken st'.world := by
  cases step_plays hstep with
  | steady _ hsteady =>
      exact h.of_trace hsteady.trace (fun i hi => h.origin_of_profile (hsteady.profile i) hi)
  | take sendMem recvMem hprofile htrace =>
      refine h.of_trace htrace (fun i hi => ?_)
      have hpos := hprofile i
      split at hpos
      next => exact ⟨congrArg Profile.mPosX hpos, congrArg Profile.mPosY hpos⟩
      next => exact h.origin_of_profile hpos hi
  | read this r bytes hthread hreads hheard =>
      exact h.read hheard (fun hr hpid => player_of_reads hknown hok hthread hreads hr hpid)
  | dispatch t q client login hq hsuccess hdata hreg hconn hdone =>
      refine h.loggedIn (World.loggedIn_of_eq hdone) ?_
      have hmem : t ∈ st.results := by
        rw [results, ProducerConsumerQueue.contents_consume hq]
        exact List.mem_cons_self
      have hne := hloaded t hmem (by rw [DatabaseJobContext.isLoad, hdata]) hsuccess
      rwa [DatabaseJobContext.playerId, hdata] at hne

end Spoken

theorem isInvariant_spoken :
    (system.startingWith Nobody).IsInvariant NamesSomebody (fun st => Spoken st.world) where
  init := by
    rintro _ ⟨⟨tick, answers, players, rfl⟩, -⟩
    exact spoken_new tick answers players
  step := by
    intro st a st' hr h hok hstep
    have hreach := hr.of_startingWith.reachable
    have habsent := (isInvariant_absent NamesSomebody (-1)).holds hr
    exact h.step (known_of_reachable hreach) habsent.2 hok hstep

/-- **Speaking.**  In every run on a table without a player −1 in which no
    session reads a CHAT or a MOVE in the name of −1 before it has been logged
    in: every broadcast is in the name of the player the last `LoginDone` made
    of its sender, and no client's assertion fails on it; and a session that
    has not been logged in is where it started. -/
theorem broadcast_after_login (st : Server)
    (h : (system.startingWith Nobody).ReachableBy NamesSomebody st) :
    (∀ l₁ i pkt l₂, st.world.trace = l₁ ++ .broadcast i pkt :: l₂ →
        (logins l₁ i).getLast? = some pkt.mPlayerId ∧ TcpClient.Asserts pkt.toBytes) ∧
      ∀ i, logins st.world.trace i = [] →
        (st.world.sessions i).mPosX = 0 ∧ (st.world.sessions i).mPosY = 0 := by
  have hspoken := isInvariant_spoken.holds h
  constructor
  · intro l₁ i pkt l₂ htrace
    obtain ⟨hplayer, hne⟩ := hspoken.inItsName l₁ _ l₂ htrace i pkt rfl
    refine ⟨(player_playOf l₁ i).symm.trans hplayer, ?_⟩
    rw [TcpClient.Asserts, OutPacket.int32At_toBytes]
    exact hne
  · intro i hi
    refine hspoken.origin i ?_
    rw [player_playOf, hi]
    rfl

/-- Who reads has been logged in, or it is a login that is read. -/
def readsLoggedOn (st : Server) (a : Event) : Bool :=
  !a.isRead || st.clientThread.reader.all (fun this =>
    (st.world.sessions this).mLogon ||
      decide (World.registered?
        (PacketHeader.ofBytes (st.world.sessions this).mRecvBuffer.contents).mType
          ∈ [none, some World.Registered.login]))

theorem namesSomebody_of_loggedOn (st : Server) (a : Event) (h : readsLoggedOn st a = true) :
    NamesSomebody st a := by
  cases a with
  | read =>
      intro this r bytes hthread hreads hr hlogon
      simp only [readsLoggedOn, Event.isRead, ClientThread.reader, hthread, hlogon,
        hreads.registered, Bool.not_true, Bool.false_or, Option.all_some, decide_eq_true_eq,
        List.mem_cons, List.not_mem_nil, or_false] at h
      rcases h with h | h
      · cases h
      · exact absurd (Option.some.inj h) hr
  | _ => trivial

/-- A player logs in and moves. -/
theorem broadcast_after_login_move :
    ∃ st pkt, (system.startingWith Nobody).ReachableBy NamesSomebody st ∧
      Note.broadcast 0 pkt ∈ st.world.trace ∧ TcpClient.Asserts pkt.toBytes := by
  have hrun : ((system.startingWith Nobody).runIf readsLoggedOn (new 0 (fun _ => true) onePlayer)
      [.accept 5, .produceAccepted, .takeAccepted (fun _ => 0) (fun _ => 0), .flush,
        .recvCompletion ⟨0, 0, BUFSIZE⟩ false [8, 0, 1, 0, 7, 0, 0, 0], .read, .produceRequest,
        .consumeRequest, .execute false, .produceResult, .read, .timer 100, .task,
        .period 100, .dispatch, .produceRequest, .dispatch,
        .recvCompletion ⟨0, 0, BUFSIZE⟩ false
          [16, 0, 21, 0, 7, 0, 0, 0, 0, 0, 128, 63, 0, 0, 0, 64], .read]).map
      (fun st => st.world.trace) =
        some ([.parsed 0 .pktCsLogin [8, 0, 1, 0, 7, 0, 0, 0], .loginDone 0 7,
          .parsed 0 .pktCsMove [16, 0, 21, 0, 7, 0, 0, 0, 0, 0, 128, 63, 0, 0, 0, 64]] ++
          [.broadcast 0 (.moveBroadcastResult ⟨7, 0x3F800000, 0x40000000⟩)]) := by
    decide +kernel
  obtain ⟨st, hst, htrace⟩ := Option.map_eq_some_iff.mp hrun
  have hinit : (system.startingWith Nobody).ReachableBy NamesSomebody
      (new 0 (fun _ => true) onePlayer) := .init ⟨⟨_, _, _, rfl⟩, rfl⟩
  have hreach := hinit.runIf namesSomebody_of_loggedOn hst
  refine ⟨st, _, hreach, ?_, ((broadcast_after_login st hreach).1 _ 0 _ [] htrace).2⟩
  rw [htrace]
  exact List.mem_append_right _ (List.mem_singleton.mpr rfl)

/-- A client that has not logged in moves as player −1, and the other client's
    assertion fails. -/
theorem broadcast_before_login :
    ∃ st l₁ i pkt l₂, (system.startingWith Nobody).Reachable st ∧
      st.world.trace = l₁ ++ .broadcast i pkt :: l₂ ∧ logins st.world.trace i = [] ∧
      (st.world.sessions i).mPosX ≠ 0 ∧
      ∃ j, j ≠ i ∧ (st.world.sessions j).mSendBuffer.contents = pkt.toBytes ∧
        ¬ TcpClient.Asserts pkt.toBytes := by
  have hrun : ((system.startingWith Nobody).run (new 0 (fun _ => true) (fun _ => none))
      [.accept 5, .produceAccepted, .takeAccepted (fun _ => 0) (fun _ => 0),
        .accept 6, .produceAccepted, .takeAccepted (fun _ => 0) (fun _ => 0), .flush,
        .recvCompletion ⟨0, 0, BUFSIZE⟩ false
          [16, 0, 21, 0, 255, 255, 255, 255, 0, 0, 128, 63, 0, 0, 0, 64], .read]).map
      (fun st => (st.world.trace, (st.world.sessions 0).mPosX,
        (st.world.sessions 1).mSendBuffer.contents)) =
        some ([.parsed 0 .pktCsMove
            [16, 0, 21, 0, 255, 255, 255, 255, 0, 0, 128, 63, 0, 0, 0, 64]] ++
          [.broadcast 0 (.moveBroadcastResult ⟨-1, 0x3F800000, 0x40000000⟩)], 0x3F800000,
          (OutPacket.moveBroadcastResult ⟨-1, 0x3F800000, 0x40000000⟩).toBytes) := by
    decide +kernel
  obtain ⟨st, hst, hall⟩ := Option.map_eq_some_iff.mp hrun
  simp only [Prod.mk.injEq] at hall
  obtain ⟨htrace, hx, hsent⟩ := hall
  have hinit : (system.startingWith Nobody).Reachable (new 0 (fun _ => true) (fun _ => none)) :=
    .init ⟨⟨_, _, _, rfl⟩, rfl⟩
  refine ⟨st, _, 0, _, [], hinit.run hst, htrace, ?_, ?_, 1, by decide,
    hsent, ?_⟩
  · rw [htrace]
    rfl
  · rw [hx]
    decide
  · rw [TcpClient.Asserts, OutPacket.int32At_toBytes]
    exact fun hne => hne rfl

end Server
end EasyGameServer
