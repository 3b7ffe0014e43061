/-
  EasyGameServer.Server

  The three threads of `EasyServer.cpp` as one transition system.

  The main thread accepts and produces into the pending accept list.  The
  client thread takes sockets from it, flushes and sleeps; asleep it runs the
  completion routines and the timer's, each as a step or, where the source
  loops, as a step for each iteration.  The database thread consumes a job,
  executes it and produces its result.

  A job the client thread has pushed waits in `outbox` until the request
  queue takes it; until then the client thread does nothing else, so a full
  queue blocks it.  A step that ends the process is not there: the run is over.
-/

import EasyGameServer.World.Evolves
import EasyGameServer.DatabaseJobManager

namespace EasyGameServer

open Lib

def pendingAcceptListSize : Nat := 100

instance : QueueSize pendingAcceptListSize := ⟨by decide, by decide⟩

/-- Where the client thread is. -/
inductive ClientThread where
  /-- At the head of the loop of `ClientHandlingThread`. -/
  | loopTop
  /-- In `SleepEx`, which returns once some routine has run. -/
  | sleeping (apcRan : Bool)
  /-- In the loop of `OnRead`. -/
  | reading (this : SessionId)
  /-- In the loop of `DoTasks`. -/
  | doingTasks
  /-- Before `OnPeriodWork`. -/
  | periodWork
  /-- In the loop of `DispatchDatabaseJobResults`. -/
  | dispatching
deriving DecidableEq

/-- Where the database thread is in the loop of `ExecuteDatabaseJobs`. -/
inductive DatabaseThread where
  | consuming
  | executing (t : Ticket)
  | producing (t : Ticket)

/-- The job the database thread holds. -/
def DatabaseThread.job : DatabaseThread → List Ticket
  | .consuming => []
  | .executing t => [t]
  | .producing t => [t]

structure Server where
  world : World
  clientThread : ClientThread
  /-- What `accept` has returned and the accept loop has not produced yet. -/
  acceptedSocket : Option SOCKET
  pendingAcceptList : ProducerConsumerQueue SOCKET pendingAcceptListSize
  mDbJobRequestQueue : ProducerConsumerQueue Ticket MAX_DB_JOB
  mDbJobResultQueue : ProducerConsumerQueue Ticket MAX_DB_JOB
  databaseThread : DatabaseThread
  players : Players

namespace Server

/-- Zeroed memory is never read as a job. -/
def nullTicket : Ticket := ⟨⟨0, false, .delete ⟨0⟩⟩, 0, 0⟩

/-- The server when its threads have been started. -/
def new (tick : UInt32) (answers : Nat → Bool) (players : Players) : Server where
  world := .new tick answers
  clientThread := .loopTop
  acceptedSocket := none
  pendingAcceptList := .new 0
  mDbJobRequestQueue := .new nullTicket
  mDbJobResultQueue := .new nullTicket
  databaseThread := .consuming
  players := players

inductive Event where
  /-- `accept` returns a handle value that is not open. -/
  | accept (sock : SOCKET)
  | produceAccepted
  /-- The client thread consumes a socket; the memories are what the new
      session's buffers contain. -/
  | takeAccepted (sendMem recvMem : Nat → UInt8)
  | flush
  | wake
  | recvCompletion (post : RecvPost) (dwError : Bool) (data : List UInt8)
  | read
  | sendCompletion (post : SendPost) (dwError : Bool) (cbTransferred : Nat)
  /-- `TimerProc`, at a tick. -/
  | timer (tick : UInt32)
  | task
  | period (currTick : UInt32)
  | dispatch
  /-- The request queue takes the job the client thread has pushed. -/
  | produceRequest
  | consumeRequest
  | execute (ioError : Bool)
  /-- The database thread executes its job, whose statement cannot be prepared. -/
  | prepareFails
  | produceResult

/-- What the client thread does when it is not blocked. -/
def clientStep (st : Server) : Event → Option Server
  | .takeAccepted sendMem recvMem =>
      match st.clientThread, st.pendingAcceptList.consume with
      | .loopTop, some (sock, q) =>
          some { st with
            world := st.world.acceptClient sock sendMem recvMem
            pendingAcceptList := q }
      | _, _ => none
  | .flush =>
      match st.clientThread, st.pendingAcceptList.consume with
      | .loopTop, none =>
          some { st with world := st.world.flushClientSend, clientThread := .sleeping false }
      | _, _ => none
  | .wake =>
      match st.clientThread with
      | .sleeping true => some { st with clientThread := .loopTop }
      | _ => none
  | .recvCompletion post dwError data =>
      match st.clientThread with
      | .sleeping _ =>
          if post ∈ st.world.os.recvs ∧ data.length ≤ post.len then
            let r := st.world.recvCompletion post dwError data
            some { st with
              world := r.2
              clientThread := if r.1 then .reading post.owner else .sleeping true }
          else none
      | _ => none
  | .read =>
      match st.clientThread with
      | .reading this =>
          match World.onReadBody this st.world with
          | .again w => some { st with world := w }
          | .leave (some w) =>
              some { st with world := w.recvExit this, clientThread := .sleeping true }
          | .leave none => none
      | _ => none
  | .sendCompletion post dwError cbTransferred =>
      match st.clientThread with
      | .sleeping _ =>
          if post ∈ st.world.os.sends then
            some { st with
              world := st.world.sendCompletion post dwError cbTransferred
              clientThread := .sleeping true }
          else none
      | _ => none
  | .timer tick =>
      match st.clientThread with
      | .sleeping _ =>
          some { st with
            world := { st.world with scheduler := st.world.scheduler.updateTick tick }
            clientThread := .doingTasks }
      | _ => none
  | .task =>
      match st.clientThread with
      | .doingTasks =>
          match st.world.doTask with
          | some w => some { st with world := w }
          | none => some { st with clientThread := .periodWork }
      | _ => none
  | .period currTick =>
      match st.clientThread with
      | .periodWork =>
          some { st with world := st.world.onPeriodWork currTick, clientThread := .dispatching }
      | _ => none
  | .dispatch =>
      match st.clientThread with
      | .dispatching =>
          match st.mDbJobResultQueue.consume with
          | none => some { st with clientThread := .sleeping true }
          | some (t, q) =>
              (st.world.dispatchDatabaseJobResult t.job).map
                (fun w => { st with world := w, mDbJobResultQueue := q })
      | _ => none
  | _ => none

/-- What the main thread, the database thread and a `Produce` of the client
    thread do. -/
def queueStep (st : Server) : Event → Option Server
  | .accept sock =>
      if st.acceptedSocket = none ∧ sock ∉ st.world.os.opened then
        some { st with
          acceptedSocket := some sock
          world := { st.world with
            os := { st.world.os with opened := sock :: st.world.os.opened } } }
      else none
  | .produceAccepted =>
      match st.acceptedSocket with
      | none => none
      | some sock =>
          (st.pendingAcceptList.produce sock).map
            (fun q => { st with acceptedSocket := none, pendingAcceptList := q })
  | .produceRequest =>
      match st.world.outbox with
      | [] => none
      | t :: rest =>
          (st.mDbJobRequestQueue.produce t).map
            (fun q => { st with
              world := { st.world with outbox := rest }
              mDbJobRequestQueue := q })
  | .consumeRequest =>
      match st.databaseThread with
      | .consuming =>
          st.mDbJobRequestQueue.consume.map
            (fun r => { st with databaseThread := .executing r.1, mDbJobRequestQueue := r.2 })
      | _ => none
  | .execute ioError =>
      match st.databaseThread with
      | .executing t =>
          (t.job.execute st.players ioError).map
            (fun r => { st with
              databaseThread := .producing { t with job := r.1 }
              players := r.2 })
      | _ => none
  -- the assertion in `DbHelper::DbHelper` ends the process
  | .prepareFails => none
  | .produceResult =>
      match st.databaseThread with
      | .producing t =>
          (st.mDbJobResultQueue.produce t).map
            (fun q => { st with databaseThread := .consuming, mDbJobResultQueue := q })
      | _ => none
  | _ => none

/-- Does the client thread do this, and only when it is not blocked? -/
def Event.ofClient : Event → Bool
  | .accept _ => false
  | .produceAccepted => false
  | .produceRequest => false
  | .consumeRequest => false
  | .execute _ => false
  | .prepareFails => false
  | .produceResult => false
  | _ => true

def step (st : Server) (a : Event) : Option Server :=
  if a.ofClient then
    if st.world.outbox.isEmpty then st.clientStep a else none
  else
    st.queueStep a

def system : System Server Event where
  init st := ∃ tick answers players, st = new tick answers players
  step := step

end Server
end EasyGameServer
