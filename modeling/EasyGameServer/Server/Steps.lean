/-
  EasyGameServer.Server.Steps

  What a step of the server can do, said once.  `Moves` lists its branches with
  their guards; no later proof unfolds `step` to see what has happened.  To the
  sessions and sockets a step does one of four things: a socket is accepted, or
  the client thread takes one, or it collects garbage, or the world evolves,
  posting and scheduling only for sessions that are registered or being read.
-/

import EasyGameServer.Server

namespace EasyGameServer

open Lib

/-- The session being read. -/
def ClientThread.reader : ClientThread → Option SessionId
  | .reading this => some this
  | _ => none

namespace Server

def Event.isDispatch : Event → Bool
  | .dispatch => true
  | _ => false

def Event.isRead : Event → Bool
  | .read => true
  | _ => false

variable {st st' : Server}

/-! ## The branches of a step -/

/-- A step of the server, one case for each way through the source; the client
    thread is not blocked in its own. -/
inductive Moves (st : Server) : Event → Server → Prop
  | takeAccepted (sendMem recvMem : Nat → UInt8) (sock : SOCKET)
      (q : ProducerConsumerQueue SOCKET pendingAcceptListSize) (hempty : st.world.outbox = [])
      (hthread : st.clientThread = .loopTop) (hq : st.pendingAcceptList.consume = some (sock, q)) :
      Moves st (.takeAccepted sendMem recvMem) { st with
        world := st.world.acceptClient sock sendMem recvMem
        pendingAcceptList := q }
  | flush (hempty : st.world.outbox = []) (hthread : st.clientThread = .loopTop)
      (hnone : st.pendingAcceptList.consume = none) :
      Moves st .flush { st with
        world := st.world.flushClientSend
        clientThread := .sleeping false }
  | wake (hempty : st.world.outbox = []) (hthread : st.clientThread = .sleeping true) :
      Moves st .wake { st with clientThread := .loopTop }
  | recvCompletion (post : RecvPost) (dwError : Bool) (data : List UInt8) (apcRan : Bool)
      (hempty : st.world.outbox = []) (hthread : st.clientThread = .sleeping apcRan)
      (hpost : post ∈ st.world.os.recvs) (hlen : data.length ≤ post.len) :
      Moves st (.recvCompletion post dwError data) { st with
        world := (st.world.recvCompletion post dwError data).2
        clientThread := if (st.world.recvCompletion post dwError data).1 then
          .reading post.owner else .sleeping true }
  | readAgain (this : SessionId) (w : World) (hempty : st.world.outbox = [])
      (hthread : st.clientThread = .reading this)
      (hbody : World.onReadBody this st.world = .again w) :
      Moves st .read { st with world := w }
  | readLeave (this : SessionId) (w : World) (hempty : st.world.outbox = [])
      (hthread : st.clientThread = .reading this)
      (hbody : World.onReadBody this st.world = .leave (some w)) :
      Moves st .read { st with world := w.recvExit this, clientThread := .sleeping true }
  | sendCompletion (post : SendPost) (dwError : Bool) (cbTransferred : Nat) (apcRan : Bool)
      (hempty : st.world.outbox = []) (hthread : st.clientThread = .sleeping apcRan)
      (hpost : post ∈ st.world.os.sends) :
      Moves st (.sendCompletion post dwError cbTransferred) { st with
        world := st.world.sendCompletion post dwError cbTransferred
        clientThread := .sleeping true }
  | timer (tick : UInt32) (apcRan : Bool) (hempty : st.world.outbox = [])
      (hthread : st.clientThread = .sleeping apcRan) :
      Moves st (.timer tick) { st with
        world := { st.world with scheduler := st.world.scheduler.updateTick tick }
        clientThread := .doingTasks }
  | taskRun (w : World) (hempty : st.world.outbox = []) (hthread : st.clientThread = .doingTasks)
      (htask : st.world.doTask = some w) : Moves st .task { st with world := w }
  | taskNone (hempty : st.world.outbox = []) (hthread : st.clientThread = .doingTasks)
      (htask : st.world.doTask = none) : Moves st .task { st with clientThread := .periodWork }
  | period (currTick : UInt32) (hempty : st.world.outbox = [])
      (hthread : st.clientThread = .periodWork) :
      Moves st (.period currTick) { st with
        world := st.world.onPeriodWork currTick
        clientThread := .dispatching }
  | dispatchNone (hempty : st.world.outbox = []) (hthread : st.clientThread = .dispatching)
      (hnone : st.mDbJobResultQueue.consume = none) :
      Moves st .dispatch { st with clientThread := .sleeping true }
  | dispatchJob (t : Ticket) (q : ProducerConsumerQueue Ticket MAX_DB_JOB) (w : World)
      (hempty : st.world.outbox = []) (hthread : st.clientThread = .dispatching)
      (hq : st.mDbJobResultQueue.consume = some (t, q))
      (hw : st.world.dispatchDatabaseJobResult t.job = some w) :
      Moves st .dispatch { st with world := w, mDbJobResultQueue := q }
  | accept (sock : SOCKET) (hnone : st.acceptedSocket = none)
      (hfresh : sock ∉ st.world.os.opened) :
      Moves st (.accept sock) { st with
        acceptedSocket := some sock
        world := { st.world with
          os := { st.world.os with opened := sock :: st.world.os.opened } } }
  | produceAccepted (sock : SOCKET) (q : ProducerConsumerQueue SOCKET pendingAcceptListSize)
      (hsock : st.acceptedSocket = some sock) (hq : st.pendingAcceptList.produce sock = some q) :
      Moves st .produceAccepted { st with acceptedSocket := none, pendingAcceptList := q }
  | produceRequest (t : Ticket) (rest : List Ticket) (q : ProducerConsumerQueue Ticket MAX_DB_JOB)
      (houtbox : st.world.outbox = t :: rest) (hq : st.mDbJobRequestQueue.produce t = some q) :
      Moves st .produceRequest { st with
        world := { st.world with outbox := rest }
        mDbJobRequestQueue := q }
  | consumeRequest (t : Ticket) (q : ProducerConsumerQueue Ticket MAX_DB_JOB)
      (hdb : st.databaseThread = .consuming) (hq : st.mDbJobRequestQueue.consume = some (t, q)) :
      Moves st .consumeRequest { st with
        databaseThread := .executing t
        mDbJobRequestQueue := q }
  | execute (ioError : Bool) (t : Ticket) (job : DatabaseJobContext) (players : Players)
      (hdb : st.databaseThread = .executing t)
      (hexec : t.job.execute st.players ioError = some (job, players)) :
      Moves st (.execute ioError) { st with
        databaseThread := .producing { t with job := job }
        players := players }
  | produceResult (t : Ticket) (q : ProducerConsumerQueue Ticket MAX_DB_JOB)
      (hdb : st.databaseThread = .producing t) (hq : st.mDbJobResultQueue.produce t = some q) :
      Moves st .produceResult { st with databaseThread := .consuming, mDbJobResultQueue := q }

/-- What the client thread does when it is not blocked. -/
theorem moves_of_clientStep {a : Event} (hempty : st.world.outbox = [])
    (h : st.clientStep a = some st') : st.Moves a st' := by
  cases a with
  | takeAccepted sendMem recvMem =>
      simp only [clientStep] at h
      split at h
      next sock q hthread hq =>
        cases h
        exact .takeAccepted sendMem recvMem sock q hempty hthread hq
      next => cases h
  | flush =>
      simp only [clientStep] at h
      split at h
      next hthread hnone =>
        cases h
        exact .flush hempty hthread hnone
      next => cases h
  | wake =>
      simp only [clientStep] at h
      split at h
      next hthread =>
        cases h
        exact .wake hempty hthread
      next => cases h
  | recvCompletion post dwError data =>
      simp only [clientStep] at h
      split at h
      next apcRan hthread =>
        split at h
        next hpost =>
          cases h
          exact .recvCompletion post dwError data apcRan hempty hthread hpost.1 hpost.2
        next => cases h
      next => cases h
  | read =>
      simp only [clientStep] at h
      split at h
      next this hthread =>
        split at h
        next w hbody =>
          cases h
          exact .readAgain this w hempty hthread hbody
        next w hbody =>
          cases h
          exact .readLeave this w hempty hthread hbody
        next => cases h
      next => cases h
  | sendCompletion post dwError cbTransferred =>
      simp only [clientStep] at h
      split at h
      next apcRan hthread =>
        split at h
        next hpost =>
          cases h
          exact .sendCompletion post dwError cbTransferred apcRan hempty hthread hpost
        next => cases h
      next => cases h
  | timer tick =>
      simp only [clientStep] at h
      split at h
      next apcRan hthread =>
        cases h
        exact .timer tick apcRan hempty hthread
      next => cases h
  | task =>
      simp only [clientStep] at h
      split at h
      next hthread =>
        split at h
        next w htask =>
          cases h
          exact .taskRun w hempty hthread htask
        next htask =>
          cases h
          exact .taskNone hempty hthread htask
      next => cases h
  | period currTick =>
      simp only [clientStep] at h
      split at h
      next hthread =>
        cases h
        exact .period currTick hempty hthread
      next => cases h
  | dispatch =>
      simp only [clientStep] at h
      split at h
      next hthread =>
        split at h
        next hnone =>
          cases h
          exact .dispatchNone hempty hthread hnone
        next t q hq =>
          obtain ⟨w, hw, heq⟩ := Option.map_eq_some_iff.mp h
          cases heq
          exact .dispatchJob t q w hempty hthread hq hw
      next => cases h
  | _ => cases h

/-- What goes on beside it. -/
theorem moves_of_queueStep {a : Event} (h : st.queueStep a = some st') : st.Moves a st' := by
  cases a with
  | accept sock =>
      simp only [queueStep] at h
      split at h
      next hcond =>
        cases h
        exact .accept sock hcond.1 hcond.2
      next => cases h
  | produceAccepted =>
      simp only [queueStep] at h
      split at h
      next => cases h
      next sock hsock =>
        obtain ⟨q, hq, heq⟩ := Option.map_eq_some_iff.mp h
        cases heq
        exact .produceAccepted sock q hsock hq
  | produceRequest =>
      simp only [queueStep] at h
      split at h
      next => cases h
      next t rest houtbox =>
        obtain ⟨q, hq, heq⟩ := Option.map_eq_some_iff.mp h
        cases heq
        exact .produceRequest t rest q houtbox hq
  | consumeRequest =>
      simp only [queueStep] at h
      split at h
      next hdb =>
        obtain ⟨⟨t, q⟩, hq, heq⟩ := Option.map_eq_some_iff.mp h
        cases heq
        exact .consumeRequest t q hdb hq
      next => cases h
  | execute ioError =>
      simp only [queueStep] at h
      split at h
      next t hdb =>
        obtain ⟨⟨job, players⟩, hexec, heq⟩ := Option.map_eq_some_iff.mp h
        cases heq
        exact .execute ioError t job players hdb hexec
      next => cases h
  | produceResult =>
      simp only [queueStep] at h
      split at h
      next t hdb =>
        obtain ⟨q, hq, heq⟩ := Option.map_eq_some_iff.mp h
        cases heq
        exact .produceResult t q hdb hq
      next => cases h
  | _ => cases h

theorem step_moves {a : Event} (h : st.step a = some st') : st.Moves a st' := by
  unfold step at h
  split at h
  · split at h
    next hempty => exact moves_of_clientStep (List.isEmpty_iff.mp hempty) h
    next => cases h
  · exact moves_of_queueStep h

/-! ## What it does to the sessions -/

/-- Accepted sockets that are no session's yet, the oldest first. -/
def pending (st : Server) : List SOCKET :=
  st.pendingAcceptList.contents ++ st.acceptedSocket.toList

/-- The sessions a step may post or schedule for. -/
def InUse (st : Server) (i : SessionId) : Prop :=
  (∃ k : SOCKET, st.world.mClientList[k]? = some i) ∨ st.clientThread = .reading i

inductive Change (st st' : Server) : Event → Prop
  /-- The main thread accepts. -/
  | accept (sock : SOCKET) (hfresh : sock ∉ st.world.os.opened)
      (hworld : st'.world = { st.world with
        os := { st.world.os with opened := sock :: st.world.os.opened } })
      (hpending : st'.pending = st.pending ++ [sock])
      (hthread : st'.clientThread = st.clientThread) : Change st st' (.accept sock)
  /-- The client thread takes a socket. -/
  | take (sendMem recvMem : Nat → UInt8) (sock : SOCKET)
      (hsock : ∃ q, st.pendingAcceptList.consume = some (sock, q))
      (hevolves : World.Evolves (fun i => i = st.world.next)
        (st.world.connectClient sock sendMem recvMem) st'.world)
      (hpending : st.pending = sock :: st'.pending)
      (hthread : st'.clientThread = .loopTop) : Change st st' (.takeAccepted sendMem recvMem)
  /-- Garbage collection. -/
  | period (currTick : UInt32) (hworld : st'.world = st.world.onPeriodWork currTick)
      (hpending : st'.pending = st.pending)
      (hthread : st'.clientThread = .dispatching) : Change st st' (.period currTick)
  | evolve (a : Event) (hevolves : World.Evolves st.InUse st.world st'.world)
      (hpending : st'.pending = st.pending)
      (hreading : ∀ i, st'.clientThread = .reading i → st.clientThread = .reading i ∨
        (0 < st.world.held i ∧ (st.world.sessions i).mConnected = true)) : Change st st' a

/-- A receive that goes on to `OnRead` was counted for a connected session. -/
theorem reading_of_recvCompletion {w : World} {post : RecvPost} {dwError : Bool}
    {data : List UInt8} (hpost : post ∈ w.os.recvs)
    (h : (w.recvCompletion post dwError data).1 = true) :
    0 < w.held post.owner ∧ (w.sessions post.owner).mConnected = true := by
  have hpos : 0 < w.os.recvs.countP (fun p => p.owner = post.owner) :=
    List.countP_pos_iff.mpr ⟨post, hpost, decide_eq_true rfl⟩
  refine ⟨by rw [World.held, Os.posted]; omega, ?_⟩
  rcases World.recvCompletion_cases w post dwError data with
    ⟨-, heq⟩ | ⟨hconn, -⟩ | ⟨hconn, -⟩
  · rw [heq] at h
    cases h
  · exact hconn
  · exact hconn

theorem step_change {a : Event} (h : st.step a = some st') : Change st st' a := by
  cases step_moves h with
  | takeAccepted sendMem recvMem sock q _ hthread hq =>
      have hcontents := ProducerConsumerQueue.contents_consume hq
      refine .take sendMem recvMem sock ⟨q, hq⟩ ?_ ?_ hthread
      · show World.Evolves _ _ (st.world.acceptClient sock sendMem recvMem)
        rw [World.acceptClient_eq]
        exact World.evolves_recvExit _ _
      · show st.pendingAcceptList.contents ++ _ = sock :: (q.contents ++ _)
        rw [hcontents]
        rfl
  | flush =>
      exact .evolve _ ((World.evolves_flushClientSend _).mono (fun _ => Or.inl)) rfl nofun
  | wake => exact .evolve _ (.refl _) rfl nofun
  | recvCompletion post dwError data apcRan _ _ hpost =>
      refine .evolve _ (World.evolves_recvCompletion hpost dwError data) rfl ?_
      intro i hi
      cases hon : (st.world.recvCompletion post dwError data).1 with
      | true =>
          simp only [hon, if_true, ClientThread.reading.injEq] at hi
          rw [← hi]
          exact Or.inr (reading_of_recvCompletion hpost hon)
      | false =>
          simp only [hon] at hi
          exact absurd hi (by simp)
  | readAgain this w _ hthread hbody =>
      exact .evolve _ (World.evolves_onReadBody hbody) rfl (fun _ hi => Or.inl hi)
  | readLeave this w _ hthread hbody =>
      refine .evolve _ ((World.onReadBody_leave hbody).evolves.trans
        ((World.evolves_recvExit w this).mono ?_)) rfl nofun
      rintro i rfl
      exact Or.inr hthread
  | sendCompletion post dwError cbTransferred _ _ _ hpost =>
      exact .evolve _ (World.evolves_sendCompletion hpost dwError cbTransferred) rfl nofun
  | timer tick =>
      exact .evolve _ ⟨rfl, rfl, rfl, fun _ => rfl, fun _ => id, fun _ => id,
        fun _ hk hk' => absurd hk hk', fun _ => rfl, fun _ => Or.inl⟩ rfl nofun
  | taskRun w _ _ htask => exact .evolve _ (World.evolves_doTask htask) rfl (fun _ hi => Or.inl hi)
  | taskNone => exact .evolve _ (.refl _) rfl nofun
  | period currTick => exact .period currTick rfl rfl rfl
  | dispatchNone => exact .evolve _ (.refl _) rfl nofun
  | dispatchJob t q w _ _ _ hw =>
      exact .evolve _ ((World.evolves_dispatchDatabaseJobResult hw).mono (fun _ => Or.inl)) rfl
        (fun _ hi => Or.inl hi)
  | accept sock hnone hfresh =>
      refine .accept sock hfresh rfl ?_ rfl
      show _ ++ [sock] = _ ++ st.acceptedSocket.toList ++ [sock]
      rw [hnone]
      simp
  | produceAccepted sock q hsock hq =>
      refine .evolve _ (.refl _) ?_ (fun _ hi => Or.inl hi)
      show q.contents ++ [] = st.pendingAcceptList.contents ++ st.acceptedSocket.toList
      rw [ProducerConsumerQueue.contents_produce hq, hsock, List.append_nil]
      rfl
  | produceRequest t rest q =>
      exact .evolve _ (World.evolves_history _ _ st.world.pushed st.world.trace) rfl
        (fun _ hi => Or.inl hi)
  | consumeRequest => exact .evolve _ (.refl _) rfl (fun _ hi => Or.inl hi)
  | execute => exact .evolve _ (.refl _) rfl (fun _ hi => Or.inl hi)
  | produceResult => exact .evolve _ (.refl _) rfl (fun _ hi => Or.inl hi)

end Server
end EasyGameServer
