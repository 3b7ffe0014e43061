/-
  EasyGameServer.Server.Moving

  Where a session is.  A MOVE accepted from a session stores the position the
  packet carries; the result of a load stores the one the database had when the
  job was executed, also in a session that has been playing as that player
  since.  In every run in which no such result comes with another position, an
  accepted move stays until the next one.
-/

import EasyGameServer.Server.Play

namespace EasyGameServer

open Lib

namespace Server

/-- No result of a load is dispatched to a session that plays as the loaded
    player already and has moved elsewhere than the row says. -/
def LoadsWhereMoved (st : Server) : Event → Prop
  | .dispatch => ∀ t q login client pos, st.mDbJobResultQueue.consume = some (t, q) →
      t.job.mSuccess = true → t.job.data = .load login →
      st.world.mClientList[t.job.mSockKey]? = some client →
      (st.world.sessions client).mConnected = true →
      playOf st.world.trace client = ⟨some login.mPlayerId, some pos⟩ →
      pos = (doubleToFloat login.mPosX, doubleToFloat login.mPosY)
  | _ => True

/-- Who has moved is where it moved. -/
def Placed (w : World) : Prop :=
  ∀ i pos, (playOf w.trace i).moved = some pos →
    ((w.sessions i).mPosX, (w.sessions i).mPosY) = pos

variable {st st' : Server}

namespace Placed

variable {w w' : World} {this : SessionId}

theorem of_profile (h : Placed w) {s : ClientSession} {i : SessionId} {pos : CFloat × CFloat}
    (hprofile : s.profile = (w.sessions i).profile) (hi : (playOf w.trace i).moved = some pos) :
    (s.mPosX, s.mPosY) = pos := by
  rw [← h i pos hi]
  exact Prod.ext (congrArg Profile.mPosX hprofile) (congrArg Profile.mPosY hprofile)

/-- The MOVEs a handler obeys are those the history counts. -/
theorem read (h : Placed w) (hknown : Known w) {r : World.Registered} {bytes : List UInt8}
    (hheard : World.Heard w w' this r bytes) : Placed w' := by
  intro i pos hi
  have hpos := hheard.profile i
  have hknows : (w.sessions i).mPlayerId = _ := (hknown.knows i).mPlayerId
  rw [playOf_heard hheard] at hi
  split at hi
  next hmoved =>
    obtain ⟨rfl, hr, hplayer⟩ := hmoved
    rw [hplayer] at hknows
    rw [if_pos ⟨rfl, hr, hknows.symm⟩] at hpos
    cases hi
    exact Prod.ext (congrArg Profile.mPosX hpos) (congrArg Profile.mPosY hpos)
  next hnot =>
    rw [if_neg] at hpos
    · exact h.of_profile hpos hi
    · -- who has moved is somebody, and a MOVE in its own name is an accepted one
      rintro ⟨rfl, hr, hpid⟩
      obtain ⟨pid, hplayer⟩ := player_of_moved hi
      rw [hplayer] at hknows
      exact hnot ⟨rfl, hr, hplayer.trans (congrArg some (hpid.trans hknows).symm)⟩

/-- A login as the player a session is already finds it where it has moved. -/
theorem loggedIn (h : Placed w) {pid : Int32} {x y : CFloat} {name : CString maxNameLen}
    (hlogged : World.LoggedIn w w' this pid x y name)
    (hwhere : ∀ pos, playOf w.trace this = ⟨some pid, some pos⟩ → pos = (x, y)) : Placed w' := by
  intro i pos hi
  have hpos := hlogged.profile i
  rw [playOf_loggedIn hlogged] at hi
  split at hi
  next => cases hi
  next hnot =>
    split at hpos
    next heq =>
      have hplayer : (playOf w.trace i).player = some pid := by
        by_contra hne
        exact hnot ⟨heq, hne⟩
      have hplay : playOf w.trace this = ⟨some pid, some pos⟩ := by
        rw [← heq, ← hplayer, ← hi]
      rw [hwhere pos hplay]
      exact Prod.ext (congrArg Profile.mPosX hpos) (congrArg Profile.mPosY hpos)
    next => exact h.of_profile hpos hi

theorem step {a : Event} (h : Placed st.world) (hknown : Known st.world)
    (hok : LoadsWhereMoved st a) (hstep : st.step a = some st') : Placed st'.world := by
  cases step_plays hstep with
  | steady _ hsteady =>
      intro i pos hi
      rw [hsteady.trace] at hi
      exact h.of_profile (hsteady.profile i) hi
  | take sendMem recvMem hprofile htrace =>
      intro i pos hi
      rw [htrace] at hi
      have hpos := hprofile i
      split at hpos
      next hnew =>
        -- a session that was not there has not moved
        rw [hknown.unused i (Nat.le_of_eq hnew.symm)] at hi
        cases hi
      next => exact h.of_profile hpos hi
  | read this r bytes hthread hreads hheard => exact h.read hknown hheard
  | dispatch t q client login hq hsuccess hdata hreg hconn hdone =>
      exact h.loggedIn (World.loggedIn_of_eq hdone)
        (fun pos hplay => hok t q login client pos hq hsuccess hdata hreg hconn hplay)

end Placed

theorem isInvariant_placed :
    system.IsInvariant LoadsWhereMoved (fun st => Placed st.world) where
  init := by
    rintro _ ⟨tick, answers, players, rfl⟩ i pos hi
    cases hi
  step _ _ _ hr h hok hstep := h.step (known_of_reachable hr.reachable) hok hstep

/-- A session that stays the same player and has no further move accepted. -/
theorem foldl_next_stays {ns : List Note} {i : SessionId} {pid : Int32} {p : Play}
    (hplayer : p.player = some pid)
    (hlast : ∀ bytes, Note.parsed i .pktCsMove bytes ∈ ns → World.claimedPlayerId bytes ≠ pid)
    (hstays : ∀ pid', Note.loginDone i pid' ∈ ns → pid' = pid) :
    ns.foldl (Play.next i) p = p := by
  induction ns with
  | nil => rfl
  | cons n ns ih =>
      have hn : Play.next i p n = p := by
        unfold Play.next
        split
        next j bytes =>
          refine if_neg ?_
          rintro ⟨rfl, hclaimed⟩
          refine hlast bytes List.mem_cons_self ?_
          exact (Option.some.inj (hplayer.symm.trans hclaimed)).symm
        next j pid' =>
          refine if_neg ?_
          rintro ⟨rfl, hother⟩
          rw [hstays pid' List.mem_cons_self] at hother
          exact hother hplayer
        next => rfl
      rw [List.foldl_cons, hn]
      exact ih (fun bytes hb => hlast bytes (List.mem_cons_of_mem _ hb))
        (fun pid' hp => hstays pid' (List.mem_cons_of_mem _ hp))

/-- **Accepted moves.**  In every run in which no result of a load takes a
    session that plays as the loaded player away from where it has moved: once
    a MOVE of a session logged in as `pid` has been accepted, the session stays
    there, and that is what `OnDbUpdate` would save, as long as it is logged in
    as nobody else and no further MOVE is accepted from it. -/
theorem accepted_move_kept (st : Server) (h : system.ReachableBy LoadsWhereMoved st)
    (l₁ l₂ : List Note) (i : SessionId) (bytes : List UInt8) (pid : Int32)
    (htrace : st.world.trace = l₁ ++ .parsed i .pktCsMove bytes :: l₂)
    (hplayer : (logins l₁ i).getLast? = some pid)
    (haccepted : (MoveRequest.ofBytes bytes).mPlayerId = pid)
    (hlast : ∀ bytes', Note.parsed i .pktCsMove bytes' ∈ l₂ →
      (MoveRequest.ofBytes bytes').mPlayerId ≠ pid)
    (hstays : ∀ pid', Note.loginDone i pid' ∈ l₂ → pid' = pid) :
    (st.world.sessions i).mPosX = (MoveRequest.ofBytes bytes).mPosX ∧
      (st.world.sessions i).mPosY = (MoveRequest.ofBytes bytes).mPosY ∧
      (World.updateJob (st.world.sessions i)).data = .update
        { mPlayerId := pid
          mPosX := floatToDouble (MoveRequest.ofBytes bytes).mPosX
          mPosY := floatToDouble (MoveRequest.ofBytes bytes).mPosY
          mComment := World.updatedTest } := by
  have hplay : playOf st.world.trace i = ⟨some pid,
      some ((MoveRequest.ofBytes bytes).mPosX, (MoveRequest.ofBytes bytes).mPosY)⟩ := by
    have hold : (playOf l₁ i).player = some pid := (player_playOf l₁ i).trans hplayer
    have hclaimed : i = i ∧ (playOf l₁ i).player = some (World.claimedPlayerId bytes) :=
      ⟨rfl, hold.trans (congrArg some haccepted.symm)⟩
    have hmove : Play.next i (playOf l₁ i) (.parsed i .pktCsMove bytes) = ⟨some pid,
        some ((MoveRequest.ofBytes bytes).mPosX, (MoveRequest.ofBytes bytes).mPosY)⟩ := by
      refine (if_pos hclaimed).trans ?_
      rw [hold]
    rw [htrace, playOf_append, List.foldl_cons, hmove]
    exact foldl_next_stays rfl hlast hstays
  have hplaced := isInvariant_placed.holds h i _ (congrArg Play.moved hplay)
  obtain ⟨hx, hy⟩ := Prod.mk.inj hplaced
  have hpid : (st.world.sessions i).mPlayerId = pid := by
    have hknows := ((known_of_reachable h.reachable).knows i).mPlayerId
    rw [hplay] at hknows
    exact hknows
  refine ⟨hx, hy, ?_⟩
  rw [World.updateJob, hpid, hx, hy]

/-- A player logs in and the save of the login is executed. -/
def loginEvents : List Event :=
  [.accept 5, .produceAccepted, .takeAccepted (fun _ => 0) (fun _ => 0), .flush,
    .recvCompletion ⟨0, 0, BUFSIZE⟩ false [8, 0, 1, 0, 7, 0, 0, 0], .read, .produceRequest,
    .consumeRequest, .execute false, .produceResult, .read, .timer 100, .task, .period 100,
    .dispatch, .produceRequest, .dispatch, .consumeRequest, .execute false, .produceResult]

/-- A MOVE of player 7 to (1, 2). -/
def moveBytes : List UInt8 := [16, 0, 21, 0, 7, 0, 0, 0, 0, 0, 128, 63, 0, 0, 0, 64]

/-- What is dispatched is no load's result, or it is for a session that has not
    moved. -/
def loadsUnmoved (st : Server) (a : Event) : Bool :=
  !a.isDispatch || st.mDbJobResultQueue.consume.all (fun r =>
    !r.1.job.isLoad || (st.world.mClientList[r.1.job.mSockKey]?).all
      (fun client => (playOf st.world.trace client).moved.isNone))

theorem loadsWhereMoved_of_unmoved (st : Server) (a : Event) (h : loadsUnmoved st a = true) :
    LoadsWhereMoved st a := by
  cases a with
  | dispatch =>
      intro t q login client pos hq hsuccess hdata hreg hconn hplay
      have hload : t.job.isLoad = true := by rw [DatabaseJobContext.isLoad, hdata]
      simp [loadsUnmoved, Event.isDispatch, hq, hload, hreg, hplay] at h
  | _ => trivial

/-- It moves, and the timer passes by. -/
theorem accepted_move_kept_once :
    ∃ st, system.ReachableBy LoadsWhereMoved st ∧ st.mDbJobResultQueue.contents = [] ∧
      (st.world.sessions 0).mPosX = 0x3F800000 ∧ (st.world.sessions 0).mPosY = 0x40000000 := by
  have hrun : (system.runIf loadsUnmoved (new 0 (fun _ => true) onePlayer) (loginEvents ++
      ([.recvCompletion ⟨0, 0, BUFSIZE⟩ false moveBytes, .read, .read, .timer 200, .task,
        .period 200, .dispatch] : List Event))).map
      (fun st => (st.world.trace, st.mDbJobResultQueue.contents.length)) =
        some (([.parsed 0 .pktCsLogin [8, 0, 1, 0, 7, 0, 0, 0], .loginDone 0 7] : List Note) ++
          .parsed 0 .pktCsMove moveBytes ::
          [.broadcast 0 (.moveBroadcastResult ⟨7, 0x3F800000, 0x40000000⟩)], 0) := by
    decide +kernel
  obtain ⟨st, hst, hall⟩ := Option.map_eq_some_iff.mp hrun
  obtain ⟨htrace, hempty⟩ := Prod.mk.inj hall
  have hinit : system.ReachableBy LoadsWhereMoved (new 0 (fun _ => true) onePlayer) :=
    .init ⟨_, _, _, rfl⟩
  have hreach := hinit.runIf loadsWhereMoved_of_unmoved hst
  obtain ⟨hx, hy, -⟩ := accepted_move_kept st hreach _ _ 0 moveBytes 7 htrace (by decide)
    (by decide) (by simp) (by simp)
  exact ⟨st, hreach, List.length_eq_zero_iff.mp hempty, hx, hy⟩

/-- A player logs in, asks to be logged in again and moves; the second result
    takes it back. -/
theorem accepted_move_undone :
    ∃ st l₁ l₂ i bytes pid, system.Reachable st ∧
      st.world.trace = l₁ ++ .parsed i .pktCsMove bytes :: l₂ ∧
      (logins l₁ i).getLast? = some pid ∧ (MoveRequest.ofBytes bytes).mPlayerId = pid ∧
      (∀ bytes', Note.parsed i .pktCsMove bytes' ∉ l₂) ∧
      (∀ pid', Note.loginDone i pid' ∈ l₂ → pid' = pid) ∧
      (st.world.sessions i).mPosX ≠ (MoveRequest.ofBytes bytes).mPosX := by
  have hrun : (system.run (new 0 (fun _ => true) onePlayer) (loginEvents ++
      ([.recvCompletion ⟨0, 0, BUFSIZE⟩ false ([8, 0, 1, 0, 7, 0, 0, 0] ++ moveBytes), .read,
        .produceRequest, .read, .read, .consumeRequest, .execute false, .produceResult,
        .timer 200, .task, .period 200, .dispatch, .dispatch] : List Event))).map
      (fun st => (st.world.trace, (st.world.sessions 0).mPosX)) =
        some (([.parsed 0 .pktCsLogin [8, 0, 1, 0, 7, 0, 0, 0], .loginDone 0 7,
            .parsed 0 .pktCsLogin [8, 0, 1, 0, 7, 0, 0, 0]] : List Note) ++
          .parsed 0 .pktCsMove moveBytes ::
          [.broadcast 0 (.moveBroadcastResult ⟨7, 0x3F800000, 0x40000000⟩), .loginDone 0 7],
          0) := by
    decide +kernel
  obtain ⟨st, hst, hall⟩ := Option.map_eq_some_iff.mp hrun
  obtain ⟨htrace, hx⟩ := Prod.mk.inj hall
  refine ⟨st, _, _, 0, moveBytes, 7, .run (.init ⟨_, _, _, rfl⟩) hst, htrace, by decide,
    by decide, by simp, by simp, ?_⟩
  rw [hx]
  decide

end Server
end EasyGameServer
