/-
  EasyGameServer.World

  What the client thread owns, and everything it does to more than one
  session: `ClientManager`, the scheduler of the thread, and the members of
  `ClientSession` that reach either of them or the database.

  Session objects live in `sessions` under names that are never used twice;
  `deleted` lists the names `delete` was called on.  A job handed to
  `PushDatabaseJobRequest` waits in `outbox` until the request queue takes it,
  which is where the thread may block; so do the words of the source that
  follow the call not wait for it, and nothing they touch is shared.  Tickets,
  `pushed` and `trace` record what happened; no function of the source reads
  them.
-/

import EasyGameServer.DatabaseJobContext
import EasyGameServer.Scheduler.Basic
import Std.Data.TreeMap.Lemmas

namespace EasyGameServer

open Lib

def PLAYER_HEART_BEAT : UInt32 := 1000
def PLAYER_DB_UPDATE_INTERVAL : UInt32 := 60 * 1000

/-- The member functions sessions bind into scheduler tasks. -/
inductive SessionTask where
  | onTick
  | onDbUpdate
deriving DecidableEq

/-- A pushed job, with the session that pushed it and the number of sessions
    there had been by then. -/
structure Ticket where
  job : DatabaseJobContext
  pushedBy : SessionId
  born : SessionId

inductive Note where
  /-- A handler read these bytes into its packet. -/
  | parsed (this : SessionId) (type : PacketTypes) (bytes : List UInt8)
  /-- `Broadcast`, its own copy accepted. -/
  | broadcast (this : SessionId) (pkt : OutPacket)
  /-- `LoginDone`. -/
  | loginDone (this : SessionId) (pid : Int32)
deriving DecidableEq

structure World where
  sessions : SessionId → ClientSession
  next : SessionId
  deleted : List SessionId
  mClientList : Std.TreeMap SOCKET SessionId
  mLastGCTick : UInt32
  scheduler : Scheduler SessionId SessionTask
  os : Os
  outbox : List Ticket
  pushed : List Ticket
  trace : List Note

namespace World

/-- The client thread right after its start, on a system whose calls will have
    the given outcomes; no name is a session yet. -/
def new (tick : UInt32) (answers : Nat → Bool) : World where
  sessions := fun _ => .new 0 (fun _ => 0) (fun _ => 0)
  next := 0
  deleted := []
  mClientList := ∅
  mLastGCTick := 0
  scheduler := .new tick
  os := ⟨answers, 0, [], [], [], []⟩
  outbox := []
  pushed := []
  trace := []

/-- Store a session and the system it has talked to. -/
def put (w : World) (this : SessionId) (r : ClientSession × Os) : World :=
  { w with sessions := fun i => if i = this then r.1 else w.sessions i, os := r.2 }

/-- Change a session without talking to the system. -/
def modify (w : World) (this : SessionId) (f : ClientSession → ClientSession) : World :=
  w.put this (f (w.sessions this), w.os)

def note (w : World) (n : Note) : World := { w with trace := w.trace ++ [n] }

/-! ## Sending -/

def disconnect (w : World) (this : SessionId) : World :=
  w.put this ((w.sessions this).disconnect w.os)

def sendRequest (w : World) (this : SessionId) (pkt : OutPacket) : Bool × World :=
  let r := (w.sessions this).sendRequest pkt w.os
  (r.1, w.put this r.2)

/-- `BroadcastPacket`: to every registered session but one. -/
def broadcastPacket (w : World) (sender : SessionId) (pkt : OutPacket) : World :=
  w.mClientList.toList.foldl
    (fun w it => if sender = it.2 then w else (w.sendRequest it.2 pkt).2) w

def broadcast (w : World) (this : SessionId) (pkt : OutPacket) : Bool × World :=
  let r := w.sendRequest this pkt
  if r.1 then
    if (r.2.sessions this).mConnected then
      (true, (r.2.note (.broadcast this pkt)).broadcastPacket this pkt)
    else
      (false, r.2)
  else
    (false, r.2)

/-- How the handlers relay a packet: who cannot broadcast is disconnected. -/
def relay (w : World) (this : SessionId) (pkt : OutPacket) : World :=
  if (w.broadcast this pkt).1 then (w.broadcast this pkt).2
  else (w.broadcast this pkt).2.disconnect this

/-- `FlushClientSend`. -/
def flushClientSend (w : World) : World :=
  w.mClientList.toList.foldl
    (fun w it => w.put it.2 ((w.sessions it.2).flushClientSend it.2 w.os)) w

/-- The completion of a posted send: `SendCompletion` is called for it. -/
def sendCompletion (w : World) (post : SendPost) (dwError : Bool) (cbTransferred : Nat) :
    World :=
  w.put post.owner ((w.sessions post.owner).sendCompletion dwError cbTransferred
    { w.os with sends := w.os.sends.erase post })

/-! ## Scheduling and jobs -/

/-- `CallFuncAfter`, for a member function of a session. -/
def callFuncAfter (w : World) (after : UInt32) (this : SessionId) (memfunc : SessionTask) :
    World :=
  { w.modify this ClientSession.incRefCount with
    scheduler := w.scheduler.pushTask this memfunc after }

def pushDatabaseJobRequest (w : World) (this : SessionId) (job : DatabaseJobContext) : World :=
  { w with
    outbox := w.outbox ++ [⟨job, this, w.next⟩]
    pushed := w.pushed ++ [⟨job, this, w.next⟩] }

def onTick (w : World) (this : SessionId) : World :=
  if (w.sessions this).mConnected then
    w.callFuncAfter PLAYER_HEART_BEAT this .onTick
  else w

/-- The comment every periodic update writes. -/
def updatedTest : CString maxCommentLen :=
  (strcpyS (.zeros maxCommentLen maxCommentLen_pos)
    [117, 112, 100, 97, 116, 101, 100, 95, 116, 101, 115, 116, 0]).get (by decide)

/-- The job `OnDbUpdate` pushes: `mPosZ` stays at its default. -/
def updateJob (s : ClientSession) : DatabaseJobContext where
  mSockKey := s.mSocket
  data := .update
    { mPlayerId := s.mPlayerId
      mPosX := floatToDouble s.mPosX
      mPosY := floatToDouble s.mPosY
      mComment := updatedTest }

def onDbUpdate (w : World) (this : SessionId) : World :=
  if (w.sessions this).mConnected then
    (w.pushDatabaseJobRequest this (updateJob (w.sessions this))).callFuncAfter
      PLAYER_DB_UPDATE_INTERVAL this .onDbUpdate
  else w

/-- Call a scheduled task. -/
def runTask (w : World) (e : JobElement SessionId SessionTask) : World :=
  match e.mTask with
  | .onTick => w.onTick e.mOwner
  | .onDbUpdate => w.onDbUpdate e.mOwner

/-- One iteration of the loop of `DoTasks`; `none` when it is left. -/
def doTask (w : World) : Option World :=
  match w.scheduler.dueTop with
  | none => none
  | some timerJobElem =>
      let w' := (w.runTask timerJobElem).modify timerJobElem.mOwner ClientSession.decRefCount
      some { w' with scheduler := w'.scheduler.pop }

/-! ## Database results -/

def loginDone (w : World) (this : SessionId) (pid : Int32) (x y : CFloat)
    (name : CString maxNameLen) : World :=
  let w := (w.note (.loginDone this pid)).modify this (fun s =>
    { s with
      mPlayerId := pid
      mPosX := x
      mPosY := y
      mPlayerName := s.mPlayerName.copy name })
  let outPacket : LoginResult := ⟨pid, x, y, (CString.zeros maxNameLen maxNameLen_pos).copy name⟩
  let w := (w.sendRequest this (.loginResult outPacket)).2
  let w := w.modify this (fun s => { s with mLogon := true })
  (w.onTick this).onDbUpdate this

/-- `DatabaseJobDone`; `none` when one of its assertions fails. -/
def databaseJobDone (w : World) (this : SessionId) (result : DatabaseJobContext) :
    Option World :=
  if (w.sessions this).mSocket = result.mSockKey then
    match result.data with
    | .load login =>
        some (w.loginDone this login.mPlayerId (doubleToFloat login.mPosX)
          (doubleToFloat login.mPosY) login.mPlayerName)
    | .update _ => some w
    | .create _ => none
    | .delete _ => none
  else none

/-- What `DispatchDatabaseJobResults` does with one result. -/
def dispatchDatabaseJobResult (w : World) (dbResult : DatabaseJobContext) : Option World :=
  if dbResult.mSuccess then
    match dbResult.data with
    | .create _ => some w
    | .delete _ => some w
    | _ =>
        match w.mClientList[dbResult.mSockKey]? with
        | none => some w
        | some client =>
            if (w.sessions client).mConnected then w.databaseJobDone client dbResult
            else some w
  else some w

/-! ## Session objects -/

/-- `CreateClient`.  Inserting into a map changes nothing when the key is there. -/
def createClient (w : World) (sock : SOCKET) (sendMem recvMem : Nat → UInt8) : World :=
  { w with
    sessions := fun i => if i = w.next then .new sock sendMem recvMem else w.sessions i
    next := w.next + 1
    mClientList := w.mClientList.insertIfNew sock w.next }

/-- What the client thread does with an accepted socket. -/
def acceptClient (w : World) (sock : SOCKET) (sendMem recvMem : Nat → UInt8) : World :=
  let w' := w.createClient sock sendMem recvMem
  let r := (w'.sessions w.next).onConnect w.next w'.os
  let connected := w'.put w.next r.2
  if r.1 then connected else connected.disconnect w.next

/-- Is a session one that `CollectGarbageSessions` takes? -/
def isGarbage (s : ClientSession) : Bool := !s.mConnected && decide (s.mRefCount = 0)

def deleteClient (w : World) (client : SessionId) : World :=
  { w with
    mClientList := w.mClientList.erase (w.sessions client).mSocket
    deleted := client :: w.deleted }

def collectGarbageSessions (w : World) : World :=
  let disconnectedSessions :=
    (w.mClientList.toList.map Prod.snd).filter (fun i => isGarbage (w.sessions i))
  disconnectedSessions.foldl deleteClient w

/-- `OnPeriodWork` up to the dispatch of results, which is a loop of its own. -/
def onPeriodWork (w : World) (currTick : UInt32) : World :=
  if currTick - w.mLastGCTick ≥ 1000 then
    { w.collectGarbageSessions with mLastGCTick := currTick }
  else w

end World
end EasyGameServer
