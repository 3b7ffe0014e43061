/-
  EasyGameServer.Server.Survival

  What can end the process.  A step of the model is missing where the source's
  assertions fail or the C runtime gives up, but also where the event is not
  the thread's next one or the system's part of it is not there; `Enabled` says
  when it is.  An enabled step is missing in two cases only: `OnRead` comes to a
  CHAT in the name of the session's own player whose text has no terminator, and
  `strcpy_s` ends the process; or SQLite cannot prepare a job's statement, and
  the assertion in `DbHelper::DbHelper` does.  The assertions in
  `DatabaseJobDone` never fail, nor does a copy of a name, as long as the names
  of the table fit.
-/

import EasyGameServer.Server.Saves
import EasyGameServer.Server.Play

namespace EasyGameServer

open Lib

namespace World

variable {w : World} {this : SessionId}

/-- `OnRead` ends the process on a CHAT of the session's own player without a
    terminator, and on nothing else. -/
theorem onReadBody_eq_leave_none_iff :
    onReadBody this w = .leave none ↔ ∃ bytes, Reads w this .chat bytes ∧
      Registered.Crashes .chat (w.sessions this).mPlayerId bytes := by
  constructor
  · intro h
    rcases onReadBody_cases this w with ⟨-, heq | heq⟩ | ⟨hd, ⟨hnone, -⟩ | ⟨w₁, -, heq⟩⟩
    · exact absurd (heq.symm.trans h) (by simp)
    · exact absurd (heq.symm.trans h) (by simp)
    · cases hr : registered?
        (PacketHeader.ofBytes (w.sessions this).mRecvBuffer.contents).mType with
      | none =>
          simp only [handlerTable, hr] at hnone
          cases hnone
      | some r =>
          simp only [handlerTable, hr] at hnone
          cases hread : (w.sessions this).mRecvBuffer.read r.size with
          | none =>
              rw [handler_of_read_none r hread] at hnone
              cases hnone
          | some read =>
              rcases handler_of_read r hread with ⟨-, heq⟩ | ⟨hcrash, -⟩ | ⟨-, -, w', heq, -⟩
              · cases heq.symm.trans hnone
              · obtain rfl := hcrash.1
                exact ⟨read.1, ⟨hd, hr, read.2, hread⟩, hcrash⟩
              · cases heq.symm.trans hnone
    · exact absurd (heq.symm.trans h) (by simp)
  · rintro ⟨bytes, hreads, hcrash⟩
    obtain ⟨rest, hread⟩ := hreads.read
    have hnone : handlerTable
        (PacketHeader.ofBytes (w.sessions this).mRecvBuffer.contents).mType this w = none := by
      simp only [handlerTable, hreads.registered]
      rcases handler_of_read .chat hread with ⟨hr, -⟩ | ⟨-, heq⟩ | ⟨-, hnot, -⟩
      · cases hr
      · exact heq
      · exact absurd hcrash hnot
    rcases onReadBody_cases this w with ⟨hnot, -⟩ | ⟨-, ⟨-, heq⟩ | ⟨w₁, hsome, -⟩⟩
    · exact absurd hreads.dispatched hnot
    · exact heq
    · cases hnone.symm.trans hsome

/-- Who is found under a job's socket has that socket, so no assertion about a
    result fails. -/
theorem isSome_dispatchDatabaseJobResult (hkeyed : w.Keyed) (dbResult : DatabaseJobContext) :
    (w.dispatchDatabaseJobResult dbResult).isSome := by
  unfold dispatchDatabaseJobResult
  split
  · split
    next => rfl
    next => rfl
    next hcreate hdelete =>
      split
      next => rfl
      next client hreg =>
        have hsock : (w.sessions client).mSocket = dbResult.mSockKey := hkeyed _ client hreg
        split
        · unfold databaseJobDone
          rw [if_pos hsock]
          split
          next => rfl
          next => rfl
          next c hdata => exact absurd hdata (hcreate c)
          next d hdata => exact absurd hdata (hdelete d)
        · rfl
  · rfl

end World

namespace Server

/-- It is the thread's next event, the client thread is not blocked, and the
    system does its part. -/
def Enabled (st : Server) : Event → Prop
  | .takeAccepted _ _ => st.world.outbox = [] ∧ st.clientThread = .loopTop ∧
      st.pendingAcceptList.consume ≠ none
  | .flush => st.world.outbox = [] ∧ st.clientThread = .loopTop ∧
      st.pendingAcceptList.consume = none
  | .wake => st.world.outbox = [] ∧ st.clientThread = .sleeping true
  | .recvCompletion post _ data => st.world.outbox = [] ∧
      (∃ apcRan, st.clientThread = .sleeping apcRan) ∧ post ∈ st.world.os.recvs ∧
      data.length ≤ post.len
  | .read => st.world.outbox = [] ∧ ∃ this, st.clientThread = .reading this
  | .sendCompletion post _ _ => st.world.outbox = [] ∧
      (∃ apcRan, st.clientThread = .sleeping apcRan) ∧ post ∈ st.world.os.sends
  | .timer _ => st.world.outbox = [] ∧ ∃ apcRan, st.clientThread = .sleeping apcRan
  | .task => st.world.outbox = [] ∧ st.clientThread = .doingTasks
  | .period _ => st.world.outbox = [] ∧ st.clientThread = .periodWork
  | .dispatch => st.world.outbox = [] ∧ st.clientThread = .dispatching
  | .accept sock => st.acceptedSocket = none ∧ sock ∉ st.world.os.opened
  | .produceAccepted => ∃ sock, st.acceptedSocket = some sock ∧
      st.pendingAcceptList.produce sock ≠ none
  | .produceRequest => ∃ t rest, st.world.outbox = t :: rest ∧
      st.mDbJobRequestQueue.produce t ≠ none
  | .consumeRequest => st.databaseThread = .consuming ∧ st.mDbJobRequestQueue.consume ≠ none
  | .execute _ => ∃ t, st.databaseThread = .executing t
  | .prepareFails => ∃ t, st.databaseThread = .executing t
  | .produceResult => ∃ t, st.databaseThread = .producing t ∧
      st.mDbJobResultQueue.produce t ≠ none

/-- The thread comes to a CHAT of the session's own player without a terminator,
    or SQLite cannot prepare a statement. -/
def EndsProcess (st : Server) : Event → Prop
  | .read => ∃ this bytes, st.clientThread = .reading this ∧
      World.Reads st.world this .chat bytes ∧
      World.Registered.Crashes .chat (st.world.sessions this).mPlayerId bytes
  | .prepareFails => True
  | _ => False

variable {st : Server}

theorem isInvariant_namesFit :
    (system.startingWith (fun st => st.players.NamesFit)).IsInvariant System.always
      (fun st => st.players.NamesFit) where
  init := by
    rintro st ⟨-, hfit⟩
    exact hfit
  step := by
    intro st a st' hr hfit _ hstep
    rcases players_step hstep hr.of_startingWith with
      heq | ⟨t, s, row, -, -, -, hrow, heq⟩
    · rw [heq]
      exact hfit
    · rw [heq]
      refine hfit.set _ (fun r hr => ?_)
      cases hr
      exact hfit _ row hrow

theorem isSome_execute (hfit : st.players.NamesFit) (job : DatabaseJobContext) (ioError : Bool) :
    (job.execute st.players ioError).isSome := by
  rw [DatabaseJobContext.execute, Option.isSome_map]
  cases ioError with
  | true => rfl
  | false => exact DatabaseJobContext.isSome_onExecute hfit job

/-- Where whoever is registered has the socket and every name fits. -/
theorem step_eq_none_iff (hkeyed : st.world.Keyed) (hfit : st.players.NamesFit) {a : Event}
    (ha : st.Enabled a) : st.step a = none ↔ st.EndsProcess a := by
  cases a with
  | accept sock => simp [step, Event.ofClient, queueStep, EndsProcess, ha.1, ha.2]
  | produceAccepted =>
      obtain ⟨sock, hsock, hroom⟩ := ha
      simpa [step, Event.ofClient, queueStep, EndsProcess, hsock] using hroom
  | takeAccepted sendMem recvMem =>
      obtain ⟨hempty, hthread, hsome⟩ := ha
      obtain ⟨⟨sock, q⟩, hq⟩ := Option.ne_none_iff_exists'.mp hsome
      simp [step, Event.ofClient, clientStep, EndsProcess, hempty, hthread, hq]
  | flush =>
      obtain ⟨hempty, hthread, hnone⟩ := ha
      simp [step, Event.ofClient, clientStep, EndsProcess, hempty, hthread, hnone]
  | wake => simp [step, Event.ofClient, clientStep, EndsProcess, ha.1, ha.2]
  | recvCompletion post dwError data =>
      obtain ⟨hempty, ⟨apcRan, hthread⟩, hpost, hlen⟩ := ha
      simp [step, Event.ofClient, clientStep, EndsProcess, hempty, hthread, hpost, hlen]
  | read =>
      obtain ⟨hempty, this, hthread⟩ := ha
      have hends : st.EndsProcess .read ↔ World.onReadBody this st.world = .leave none := by
        rw [World.onReadBody_eq_leave_none_iff]
        simp only [EndsProcess, hthread, ClientThread.reading.injEq, exists_eq_left',
          exists_and_left]
      rw [hends]
      simp only [step, Event.ofClient, clientStep, hempty, hthread, List.isEmpty_nil, if_true]
      cases World.onReadBody this st.world with
      | again w => simp
      | leave after => cases after <;> simp
  | sendCompletion post dwError cbTransferred =>
      obtain ⟨hempty, ⟨apcRan, hthread⟩, hpost⟩ := ha
      simp [step, Event.ofClient, clientStep, EndsProcess, hempty, hthread, hpost]
  | timer tick =>
      obtain ⟨hempty, apcRan, hthread⟩ := ha
      simp [step, Event.ofClient, clientStep, EndsProcess, hempty, hthread]
  | task =>
      simp only [step, Event.ofClient, clientStep, EndsProcess, ha.1, ha.2, List.isEmpty_nil,
        if_true]
      cases st.world.doTask <;> simp
  | period currTick => simp [step, Event.ofClient, clientStep, EndsProcess, ha.1, ha.2]
  | dispatch =>
      simp only [step, Event.ofClient, clientStep, EndsProcess, ha.1, ha.2, List.isEmpty_nil,
        if_true]
      cases st.mDbJobResultQueue.consume with
      | none => simp
      | some r =>
          have hsome := World.isSome_dispatchDatabaseJobResult hkeyed r.1.job
          simpa [Option.isSome_iff_ne_none] using hsome
  | produceRequest =>
      obtain ⟨t, rest, houtbox, hroom⟩ := ha
      simpa [step, Event.ofClient, queueStep, EndsProcess, houtbox] using hroom
  | consumeRequest =>
      simpa [step, Event.ofClient, queueStep, EndsProcess, ha.1] using ha.2
  | execute ioError =>
      obtain ⟨t, hdb⟩ := ha
      have hsome := isSome_execute hfit t.job ioError
      simpa [step, Event.ofClient, queueStep, EndsProcess, hdb, Option.isSome_iff_ne_none]
        using hsome
  | prepareFails => simp [step, Event.ofClient, queueStep, EndsProcess]
  | produceResult =>
      obtain ⟨t, hdb, hroom⟩ := ha
      simpa [step, Event.ofClient, queueStep, EndsProcess, hdb] using hroom

/-- **Survival.**  When the names of the players' table fit their buffer, a
    step that is enabled in a reachable state is missing exactly when the client
    thread reads a CHAT of the session's own player without a terminator, or the
    database thread's statement cannot be prepared. -/
theorem enabled_step_eq_none_iff (st : Server)
    (h : (system.startingWith (fun st => st.players.NamesFit)).Reachable st) (a : Event)
    (ha : st.Enabled a) : st.step a = none ↔ st.EndsProcess a := by
  have hkeyed := (sound_of_reachable h.of_startingWith).keyed
  have hfit := isInvariant_namesFit.holds h
  exact step_eq_none_iff hkeyed hfit ha

/-- A peer that has not logged in sends 256 bytes of text. -/
theorem enabled_step_eq_none_iff_stranger :
    ∃ st, (system.startingWith (fun st => st.players.NamesFit)).Reachable st ∧
      st.Enabled .read ∧ st.EndsProcess .read := by
  have hrun : ((system.startingWith (fun st => st.players.NamesFit)).run
      (new 0 (fun _ => true) (fun _ => none))
      [.accept 5, .produceAccepted, .takeAccepted (fun _ => 0) (fun _ => 0), .flush,
        .recvCompletion ⟨0, 0, BUFSIZE⟩ false
          ([8, 1, 11, 0, 255, 255, 255, 255] ++ List.replicate 256 65)]).map
      (fun st => (st.clientThread, st.world.outbox.isEmpty, (st.step .read).isNone))
      = some (.reading 0, true, true) := by
    decide +kernel
  obtain ⟨st, hst, hall⟩ := Option.map_eq_some_iff.mp hrun
  simp only [Prod.mk.injEq, List.isEmpty_iff, Option.isNone_iff_eq_none] at hall
  obtain ⟨hthread, hempty, hnone⟩ := hall
  have hfit : Players.NamesFit (fun _ => none) := by
    intro pid row hrow
    cases hrow
  have hinit : (system.startingWith (fun st => st.players.NamesFit)).Reachable
      (new 0 (fun _ => true) (fun _ => none)) := .init ⟨⟨_, _, _, rfl⟩, hfit⟩
  have hreach : (system.startingWith (fun st => st.players.NamesFit)).Reachable st :=
    hinit.run hst
  have hen : st.Enabled .read := ⟨hempty, 0, hthread⟩
  exact ⟨st, hreach, hen, (enabled_step_eq_none_iff st hreach .read hen).mp hnone⟩

end Server
end EasyGameServer
