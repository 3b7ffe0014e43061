/-
  EasyGameServer.Server.Play

  The game a session plays, read off the history: `playOf` says which player
  `LoginDone` last made of it, and where the last MOVE accepted from it as that
  player has put it.  A step changes profiles and history together, in one of
  four ways (`Plays`), so the session's own idea of who it is follows the
  history in every run (`Known`).  Its own idea of where it is does so in fewer
  runs.
-/

import EasyGameServer.Server.LoginRouting
import EasyGameServer.World.Profile
import Mathlib.Data.List.Induction

namespace EasyGameServer

open Lib

namespace Server

-- ============================================================================
-- The history of a session
-- ============================================================================

/-- Who a session is, once somebody, and where it has moved since. -/
structure Play where
  player : Option Int32
  moved : Option (CFloat × CFloat)

def Play.nobody : Play := ⟨none, none⟩

/-- What an entry of the history changes for a session. -/
def Play.next (this : SessionId) (p : Play) : Note → Play
  | .parsed i .pktCsMove bytes =>
      if i = this ∧ p.player = some (World.claimedPlayerId bytes) then
        { p with
          moved := some ((MoveRequest.ofBytes bytes).mPosX, (MoveRequest.ofBytes bytes).mPosY) }
      else p
  | .loginDone i pid => if i = this ∧ p.player ≠ some pid then ⟨some pid, none⟩ else p
  | _ => p

def playOf (trace : List Note) (this : SessionId) : Play :=
  trace.foldl (Play.next this) .nobody

theorem playOf_append (trace ns : List Note) (this : SessionId) :
    playOf (trace ++ ns) this = ns.foldl (Play.next this) (playOf trace this) :=
  List.foldl_append

/-- Broadcasts change nothing. -/
theorem foldl_next_broadcast {ns : List Note} (h : ∀ n ∈ ns, ∃ i pkt, n = .broadcast i pkt)
    (this : SessionId) (p : Play) : ns.foldl (Play.next this) p = p := by
  induction ns with
  | nil => rfl
  | cons n ns ih =>
      obtain ⟨i, pkt, rfl⟩ := h n List.mem_cons_self
      exact ih (fun n hn => h n (List.mem_cons_of_mem _ hn))

/-- Nothing but a login changes who a session is. -/
theorem player_foldl_next {ns : List Note} (h : ∀ i pid, Note.loginDone i pid ∉ ns)
    (this : SessionId) (p : Play) : (ns.foldl (Play.next this) p).player = p.player := by
  induction ns generalizing p with
  | nil => rfl
  | cons n ns ih =>
      have hrest := fun i pid hmem => h i pid (List.mem_cons_of_mem n hmem)
      refine (ih hrest (Play.next this p n)).trans ?_
      cases n with
      | parsed i type bytes =>
          cases type with
          | pktCsMove =>
              show (if _ then _ else _ : Play).player = _
              split
              · rfl
              · rfl
          | _ => rfl
      | broadcast i pkt => rfl
      | loginDone i pid => exact absurd List.mem_cons_self (h i pid)

/-- Only somebody moves. -/
theorem player_of_moved {trace : List Note} {this : SessionId} {pos : CFloat × CFloat}
    (h : (playOf trace this).moved = some pos) : ∃ pid, (playOf trace this).player = some pid := by
  induction trace using List.reverseRecOn generalizing pos with
  | nil => cases h
  | append_singleton trace n ih =>
      rw [playOf_append] at h ⊢
      change (Play.next this (playOf trace this) n).moved = _ at h
      show ∃ pid, (Play.next this (playOf trace this) n).player = _
      unfold Play.next at h ⊢
      split at h
      next =>
        split at h
        next hc => exact ⟨_, (congrArg Play.player (if_pos hc)).trans hc.2⟩
        next hc =>
          obtain ⟨pid, hpid⟩ := ih h
          exact ⟨pid, (congrArg Play.player (if_neg hc)).trans hpid⟩
      next =>
        split at h
        next => cases h
        next hc =>
          obtain ⟨pid, hpid⟩ := ih h
          exact ⟨pid, (congrArg Play.player (if_neg hc)).trans hpid⟩
      next => exact ih h

/-- After a packet is read, only a MOVE in the name of the session's player has
    changed something. -/
theorem playOf_heard {w w' : World} {this : SessionId} {r : World.Registered} {bytes : List UInt8}
    (h : World.Heard w w' this r bytes) (i : SessionId) :
    playOf w'.trace i =
      if i = this ∧ r = .move ∧ (playOf w.trace i).player = some (World.claimedPlayerId bytes) then
        { playOf w.trace i with
          moved := some ((MoveRequest.ofBytes bytes).mPosX, (MoveRequest.ofBytes bytes).mPosY) }
      else playOf w.trace i := by
  obtain ⟨ns, htrace, hns⟩ := h.trace
  have hcasts : ∀ n ∈ ns, ∃ i pkt, n = .broadcast i pkt := by
    intro n hn
    obtain ⟨-, -, pkt, hpkt, -⟩ := hns n hn
    exact ⟨this, pkt, hpkt⟩
  rw [htrace, playOf_append, List.foldl_cons, foldl_next_broadcast hcasts]
  cases r with
  | login => rw [if_neg (fun hc => absurd hc.2.1 (by decide))]; rfl
  | chat => rw [if_neg (fun hc => absurd hc.2.1 (by decide))]; rfl
  | move =>
      show (if this = i ∧ _ then _ else _) = _
      by_cases hi : this = i ∧ (playOf w.trace i).player = some (World.claimedPlayerId bytes)
      · rw [if_pos hi, if_pos ⟨hi.1.symm, rfl, hi.2⟩]
      · rw [if_neg hi, if_neg (fun hc => hi ⟨hc.1.symm, hc.2.2⟩)]

/-- Reading makes nobody somebody else. -/
theorem player_heard {w w' : World} {this : SessionId} {r : World.Registered} {bytes : List UInt8}
    (h : World.Heard w w' this r bytes) (i : SessionId) :
    (playOf w'.trace i).player = (playOf w.trace i).player := by
  rw [playOf_heard h]
  split
  · rfl
  · rfl

theorem playOf_loggedIn {w w' : World} {this : SessionId} {pid : Int32} {x y : CFloat}
    {name : CString maxNameLen} (h : World.LoggedIn w w' this pid x y name) (i : SessionId) :
    playOf w'.trace i =
      if i = this ∧ (playOf w.trace i).player ≠ some pid then ⟨some pid, none⟩
      else playOf w.trace i := by
  rw [h.trace, playOf_append]
  show (if this = i ∧ _ then _ else _) = _
  by_cases hi : this = i ∧ (playOf w.trace i).player ≠ some pid
  · rw [if_pos hi, if_pos ⟨hi.1.symm, hi.2⟩]
  · rw [if_neg hi, if_neg (fun hc => hi ⟨hc.1.symm, hc.2⟩)]

/-- The players `LoginDone` has made of a session, the oldest first. -/
def logins (trace : List Note) (this : SessionId) : List Int32 :=
  trace.filterMap fun
    | .loginDone i pid => if i = this then some pid else none
    | _ => none

theorem logins_append (trace ns : List Note) (this : SessionId) :
    logins (trace ++ ns) this = logins trace this ++ logins ns this :=
  List.filterMap_append

/-- A session's player is the last of them. -/
theorem player_playOf (trace : List Note) (this : SessionId) :
    (playOf trace this).player = (logins trace this).getLast? := by
  induction trace using List.reverseRecOn with
  | nil => rfl
  | append_singleton trace n ih =>
      rw [playOf_append, logins_append, List.getLast?_append]
      show (Play.next this (playOf trace this) n).player = _
      cases n with
      | parsed i type bytes =>
          refine Eq.trans ?_ ih
          have hnone : ∀ j pid, Note.loginDone j pid ∉ [Note.parsed i type bytes] := by simp
          exact player_foldl_next hnone this _
      | broadcast i pkt => exact ih
      | loginDone i pid =>
          show (if _ then _ else _ : Play).player = _
          by_cases hi : i = this
          · by_cases hsame : (playOf trace this).player = some pid
            · rw [if_neg (fun hc => hc.2 hsame)]
              simpa [logins, hi] using hsame
            · rw [if_pos ⟨hi, hsame⟩]
              simp [logins, hi]
          · rw [if_neg (fun hc => hi hc.1), ih]
            have hnone : logins [.loginDone i pid] this = [] := by simp [logins, hi]
            rw [hnone]
            rfl

-- ============================================================================
-- What a step plays
-- ============================================================================

/-- What a step does to the profiles and to the history. -/
inductive Plays (st st' : Server) : Event → Prop
  | steady (a : Event) (h : World.Steady st.world st'.world) : Plays st st' a
  /-- A new session is nobody, at the origin. -/
  | take (sendMem recvMem : Nat → UInt8)
      (hprofile : ∀ i, (st'.world.sessions i).profile =
        if i = st.world.next then
          ⟨-1, 0, 0, .zeros maxNameLen maxNameLen_pos, false⟩
        else (st.world.sessions i).profile)
      (htrace : st'.world.trace = st.world.trace) : Plays st st' (.takeAccepted sendMem recvMem)
  /-- A handler reads a packet. -/
  | read (this : SessionId) (r : World.Registered) (bytes : List UInt8)
      (hthread : st.clientThread = .reading this) (hreads : World.Reads st.world this r bytes)
      (hheard : World.Heard st.world st'.world this r bytes) : Plays st st' .read
  /-- The result of a load logs in. -/
  | dispatch (t : Ticket) (q : ProducerConsumerQueue Ticket MAX_DB_JOB) (client : SessionId)
      (login : LoadPlayerDataContext) (hq : st.mDbJobResultQueue.consume = some (t, q))
      (hsuccess : t.job.mSuccess = true) (hdata : t.job.data = .load login)
      (hreg : st.world.mClientList[t.job.mSockKey]? = some client)
      (hconn : (st.world.sessions client).mConnected = true)
      (hdone : st'.world = st.world.loginDone client login.mPlayerId
        (doubleToFloat login.mPosX) (doubleToFloat login.mPosY) login.mPlayerName) :
      Plays st st' .dispatch

variable {st st' : Server}

theorem step_plays {a : Event} (h : st.step a = some st') : Plays st st' a := by
  cases step_moves h with
  | takeAccepted sendMem recvMem sock q =>
      have hexit := World.steady_recvExit (st.world.connectClient sock sendMem recvMem)
        st.world.next
      refine .take sendMem recvMem (fun i => ?_) ?_
      · show ((st.world.acceptClient sock sendMem recvMem).sessions i).profile = _
        rw [World.acceptClient_eq, hexit.profile, sessions_connectClient]
        split
        · rfl
        · rfl
      · show (st.world.acceptClient sock sendMem recvMem).trace = _
        rw [World.acceptClient_eq]
        exact hexit.trace
  | flush => exact .steady _ (World.steady_flushClientSend _)
  | wake => exact .steady _ (.refl _)
  | recvCompletion post dwError data =>
      exact .steady _ (World.steady_recvCompletion _ post dwError data)
  | readAgain this w _ hthread hbody =>
      rcases World.heard_onReadBody hbody with hsteady | ⟨r, bytes, hreads, hheard⟩
      · exact .steady _ hsteady
      · exact .read this r bytes hthread hreads hheard
  | readLeave this w _ _ hbody =>
      exact .steady _ ((World.steady_onReadBody_leave hbody).trans (World.steady_recvExit w this))
  | sendCompletion post dwError cbTransferred =>
      exact .steady _ (World.steady_sendCompletion _ post dwError cbTransferred)
  | timer tick => exact .steady _ (.of_eq rfl rfl)
  | taskRun w _ _ htask => exact .steady _ (World.steady_doTask htask)
  | taskNone => exact .steady _ (.refl _)
  | period currTick => exact .steady _ (World.steady_onPeriodWork _ currTick)
  | dispatchNone => exact .steady _ (.refl _)
  | dispatchJob t q w _ _ hq hw =>
      rcases World.dispatchDatabaseJobResult_cases hw with
        heq | ⟨client, login, hsuccess, hdata, hreg, hconn, -, heq⟩
      · rw [heq]
        exact .steady _ (.of_eq rfl rfl)
      · exact .dispatch t q client login hq hsuccess hdata hreg hconn heq
  | accept sock => exact .steady _ (.of_eq rfl rfl)
  | produceAccepted => exact .steady _ (.refl _)
  | produceRequest => exact .steady _ (.of_eq rfl rfl)
  | consumeRequest => exact .steady _ (.refl _)
  | execute => exact .steady _ (.refl _)
  | produceResult => exact .steady _ (.refl _)

/-- The history only grows. -/
theorem trace_step {a : Event} (h : st.step a = some st') :
    ∃ ns, st'.world.trace = st.world.trace ++ ns := by
  cases step_plays h with
  | steady _ hsteady => exact ⟨[], hsteady.trace.trans (List.append_nil _).symm⟩
  | take sendMem recvMem hprofile htrace => exact ⟨[], htrace.trans (List.append_nil _).symm⟩
  | read this r bytes hthread hreads hheard =>
      obtain ⟨ns, htrace, -⟩ := hheard.trace
      exact ⟨_, htrace⟩
  | dispatch t q client login hq hsuccess hdata hreg hconn hdone =>
      exact ⟨_, (World.loggedIn_of_eq hdone).trace⟩

-- ============================================================================
-- Sessions know who they are
-- ============================================================================

/-- The player id is the one of the last `LoginDone`, and −1 before; `mLogon`
    tells the two apart. -/
structure Knows (f : Profile) (p : Play) : Prop where
  mPlayerId : f.mPlayerId = p.player.getD (-1)
  mLogon : f.mLogon = p.player.isSome

/-- Every session knows who it is, and no history is about a session that does
    not exist. -/
structure Known (w : World) : Prop where
  knows : ∀ i, Knows (w.sessions i).profile (playOf w.trace i)
  unused : ∀ i, w.next ≤ i → playOf w.trace i = .nobody

theorem known_new (tick : UInt32) (answers : Nat → Bool) (players : Players) :
    Known (new tick answers players).world :=
  ⟨fun _ => ⟨rfl, rfl⟩, fun _ _ => rfl⟩

theorem Known.step {a : Event} (h : Known st.world) (hsound : Sound st)
    (hstep : st.step a = some st') : Known st'.world := by
  have hnext := (ages_of_step hstep hsound.keyed).next
  have hold : ∀ i, st'.world.next ≤ i → playOf st.world.trace i = .nobody := fun i hi =>
    h.unused i (Nat.le_trans hnext hi)
  -- whoever reads or is logged in exists
  have hlater : ∀ {this i : SessionId}, Allocated st.world this → st'.world.next ≤ i →
      i ≠ this := by
    rintro this _ halloc hi rfl
    exact Nat.lt_irrefl _ (Nat.lt_of_lt_of_le halloc.1 (Nat.le_trans hnext hi))
  cases step_plays hstep with
  | steady _ hsteady =>
      refine ⟨fun i => ?_, fun i hi => ?_⟩
      · rw [hsteady.profile, hsteady.trace]
        exact h.knows i
      · rw [hsteady.trace]
        exact hold i hi
  | take sendMem recvMem hprofile htrace =>
      refine ⟨fun i => ?_, fun i hi => ?_⟩
      · rw [hprofile, htrace]
        by_cases hi : i = st.world.next
        · rw [if_pos hi, h.unused i (Nat.le_of_eq hi.symm)]
          exact ⟨rfl, rfl⟩
        · rw [if_neg hi]
          exact h.knows i
      · rw [htrace]
        exact hold i hi
  | read this r bytes hthread hreads hheard =>
      refine ⟨fun i => ?_, fun i hi => ?_⟩
      · obtain ⟨hpid, hlogon⟩ := h.knows i
        rw [← player_heard hheard i] at hpid hlogon
        exact ⟨(hheard.mPlayerId i).trans hpid, (hheard.mLogon i).trans hlogon⟩
      · rw [playOf_heard hheard, if_neg (fun hc => hlater (hsound.reading this hthread) hi hc.1)]
        exact hold i hi
  | dispatch t q client login hq hsuccess hdata hreg hconn hdone =>
      have hlogged := World.loggedIn_of_eq hdone
      refine ⟨fun i => ?_, fun i hi => ?_⟩
      · rw [hlogged.profile, playOf_loggedIn hlogged]
        by_cases hi : i = client
        · rw [if_pos hi]
          by_cases hsame : (playOf st.world.trace i).player = some login.mPlayerId
          · rw [if_neg (fun hc => hc.2 hsame)]
            exact ⟨by rw [hsame]; rfl, by rw [hsame]; rfl⟩
          · rw [if_pos ⟨hi, hsame⟩]
            exact ⟨rfl, rfl⟩
        · rw [if_neg hi, if_neg (fun hc => hi hc.1)]
          exact h.knows i
      · rw [playOf_loggedIn hlogged,
          if_neg (fun hc => hlater (hsound.registered _ client hreg) hi hc.1)]
        exact hold i hi

theorem isInvariant_known : system.IsInvariant System.always (fun st => Known st.world) where
  init := by
    rintro _ ⟨tick, answers, players, rfl⟩
    exact known_new tick answers players
  step _ _ _ hr h _ hstep := h.step (sound_of_reachable hr) hstep

theorem known_of_reachable (h : system.Reachable st) : Known st.world :=
  isInvariant_known.holds h

end Server
end EasyGameServer
