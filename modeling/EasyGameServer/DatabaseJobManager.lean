/-
  EasyGameServer.DatabaseJobManager

  `DatabaseJobManager.cpp` between its two threads.  The client thread calls
  `PushDatabaseJobRequest` and `PopDatabaseJobResult` whenever it likes, with
  whatever jobs it likes; the database thread is in the loop of
  `ExecuteDatabaseJobs`.  The queues hold pointers: a job is an object that
  both threads reach by its name, and no two objects ever share one.

  A `Produce` or `Consume` that has to wait is a call that has not got in yet;
  the threads may be suspended before each step.  A step that ends the process
  is not there: the run is over.
-/

import EasyGameServer.DbHelper
import EasyGameServer.ProducerConsumerQueue
import EasyGameServer.Lib.Lts

namespace EasyGameServer

open Lib

def MAX_DB_JOB : Nat := 127

instance : QueueSize MAX_DB_JOB := ⟨by decide, by decide⟩

/-- The name of a job object, what a `DatabaseJobContext*` points to. -/
abbrev JobId := Nat

/-- Where the database thread is in the loop of `ExecuteDatabaseJobs`, with its
    `jobContext`. -/
inductive ExecuteDatabaseJobs where
  | consuming
  | executing (jobContext : JobId)
  | producing (jobContext : JobId)

/-- The job the database thread holds. -/
def ExecuteDatabaseJobs.held : ExecuteDatabaseJobs → List JobId
  | .consuming => []
  | .executing id => [id]
  | .producing id => [id]

structure DatabaseJobManager where
  mDbJobRequestQueue : ProducerConsumerQueue JobId MAX_DB_JOB
  mDbJobResultQueue : ProducerConsumerQueue JobId MAX_DB_JOB
  databaseThread : ExecuteDatabaseJobs
  /-- The `PushDatabaseJobRequest` the client thread is in. -/
  pushing : Option JobId
  jobs : JobId → DatabaseJobContext
  /-- The next name. -/
  next : JobId
  players : Players
  /-- What has happened: the jobs pushed, with what was in them, the results of
      `OnExecute`, and the jobs popped, with what was in them. -/
  pushed : List (JobId × DatabaseJobContext)
  executed : List (JobId × Bool)
  popped : List (JobId × DatabaseJobContext)

namespace DatabaseJobManager

def new (players : Players) : DatabaseJobManager where
  mDbJobRequestQueue := .new 0
  mDbJobResultQueue := .new 0
  databaseThread := .consuming
  pushing := none
  jobs := fun _ => ⟨0, false, .delete ⟨0⟩⟩
  next := 0
  players := players
  pushed := []
  executed := []
  popped := []

def setJob (st : DatabaseJobManager) (id : JobId) (job : DatabaseJobContext) :
    JobId → DatabaseJobContext :=
  fun i => if i = id then job else st.jobs i

inductive Event where
  /-- The client thread calls `PushDatabaseJobRequest` with a job it has made. -/
  | pushRequest (job : DatabaseJobContext)
  /-- The call's `Produce` puts the job into the request queue. -/
  | produceRequest
  | popResult
  | consumeRequest
  | execute (ioError : Bool)
  /-- The database thread executes its job, whose statement cannot be prepared. -/
  | prepareFails
  | produceResult

/-- The database thread executes its job. -/
def executeJob (st : DatabaseJobManager) (prepared ioError : Bool) :
    Option DatabaseJobManager :=
  match st.databaseThread with
  | .executing id =>
      ((st.jobs id).callOnExecute st.players prepared ioError).map
        (fun r => { st with
          databaseThread := .producing id
          jobs := st.setJob id { r.2.1 with mSuccess := r.1 }
          players := r.2.2
          executed := st.executed ++ [(id, r.1)] })
  | _ => none

def step (st : DatabaseJobManager) : Event → Option DatabaseJobManager
  | .pushRequest job =>
      match st.pushing with
      | some _ => none
      | none =>
          some { st with
            pushing := some st.next
            jobs := st.setJob st.next job
            next := st.next + 1 }
  | .produceRequest =>
      match st.pushing with
      | none => none
      | some id =>
          (st.mDbJobRequestQueue.produce id).map
            (fun q => { st with
              mDbJobRequestQueue := q
              pushing := none
              pushed := st.pushed ++ [(id, st.jobs id)] })
  | .popResult =>
      match st.pushing, st.mDbJobResultQueue.consume with
      | some _, _ => none
      -- nothing is ready, and the call returns false
      | none, none => some st
      | none, some (id, q) =>
          some { st with
            mDbJobResultQueue := q
            popped := st.popped ++ [(id, st.jobs id)] }
  | .consumeRequest =>
      match st.databaseThread with
      | .consuming =>
          st.mDbJobRequestQueue.consume.map
            (fun r => { st with
              mDbJobRequestQueue := r.2
              databaseThread := .executing r.1 })
      | _ => none
  | .execute ioError => st.executeJob true ioError
  | .prepareFails => st.executeJob false false
  | .produceResult =>
      match st.databaseThread with
      | .producing id =>
          (st.mDbJobResultQueue.produce id).map
            (fun q => { st with
              mDbJobResultQueue := q
              databaseThread := .consuming })
      | _ => none

/-- The manager started over this table. -/
def system (players : Players) : System DatabaseJobManager Event where
  init st := st = new players
  step := step

-- ============================================================================
-- The branches of a step
-- ============================================================================

inductive Moves (st : DatabaseJobManager) : Event → DatabaseJobManager → Prop
  | pushRequest (job : DatabaseJobContext) (hpushing : st.pushing = none) :
      Moves st (.pushRequest job) { st with
        pushing := some st.next
        jobs := st.setJob st.next job
        next := st.next + 1 }
  | produceRequest (id : JobId) (q : ProducerConsumerQueue JobId MAX_DB_JOB)
      (hpushing : st.pushing = some id) (hq : st.mDbJobRequestQueue.produce id = some q) :
      Moves st .produceRequest { st with
        mDbJobRequestQueue := q
        pushing := none
        pushed := st.pushed ++ [(id, st.jobs id)] }
  | popNone (hpushing : st.pushing = none) (hnone : st.mDbJobResultQueue.consume = none) :
      Moves st .popResult st
  | popResult (id : JobId) (q : ProducerConsumerQueue JobId MAX_DB_JOB)
      (hpushing : st.pushing = none) (hq : st.mDbJobResultQueue.consume = some (id, q)) :
      Moves st .popResult { st with
        mDbJobResultQueue := q
        popped := st.popped ++ [(id, st.jobs id)] }
  | consumeRequest (id : JobId) (q : ProducerConsumerQueue JobId MAX_DB_JOB)
      (hdb : st.databaseThread = .consuming)
      (hq : st.mDbJobRequestQueue.consume = some (id, q)) :
      Moves st .consumeRequest { st with
        mDbJobRequestQueue := q
        databaseThread := .executing id }
  | execute (ioError : Bool) (id : JobId) (ok : Bool) (job : DatabaseJobContext)
      (players : Players) (hdb : st.databaseThread = .executing id)
      (hexec : (st.jobs id).onExecute st.players ioError = some (ok, job, players)) :
      Moves st (.execute ioError) { st with
        databaseThread := .producing id
        jobs := st.setJob id { job with mSuccess := ok }
        players := players
        executed := st.executed ++ [(id, ok)] }
  | produceResult (id : JobId) (q : ProducerConsumerQueue JobId MAX_DB_JOB)
      (hdb : st.databaseThread = .producing id)
      (hq : st.mDbJobResultQueue.produce id = some q) :
      Moves st .produceResult { st with
        mDbJobResultQueue := q
        databaseThread := .consuming }

variable {st st' : DatabaseJobManager}

theorem step_moves {a : Event} (h : st.step a = some st') : st.Moves a st' := by
  cases a with
  | pushRequest job =>
      simp only [step] at h
      split at h
      next => cases h
      next hpushing =>
        cases h
        exact .pushRequest job hpushing
  | produceRequest =>
      simp only [step] at h
      split at h
      next => cases h
      next id hpushing =>
        obtain ⟨q, hq, heq⟩ := Option.map_eq_some_iff.mp h
        cases heq
        exact .produceRequest id q hpushing hq
  | popResult =>
      simp only [step] at h
      split at h
      next => cases h
      next hpushing hnone =>
        cases h
        exact .popNone hpushing hnone
      next id q hpushing hq =>
        cases h
        exact .popResult id q hpushing hq
  | consumeRequest =>
      simp only [step] at h
      split at h
      next hdb =>
        obtain ⟨⟨id, q⟩, hq, heq⟩ := Option.map_eq_some_iff.mp h
        cases heq
        exact .consumeRequest id q hdb hq
      next => cases h
  | execute ioError =>
      simp only [step, executeJob] at h
      split at h
      next id hdb =>
        obtain ⟨⟨ok, job, players⟩, hexec, heq⟩ := Option.map_eq_some_iff.mp h
        cases heq
        rw [DatabaseJobContext.callOnExecute_eq] at hexec
        exact .execute ioError id ok job players hdb hexec
      next => cases h
  | prepareFails =>
      simp only [step, executeJob, DatabaseJobContext.callOnExecute_unprepared] at h
      split at h
      next => cases h
      next => cases h
  | produceResult =>
      simp only [step] at h
      split at h
      next id hdb =>
        obtain ⟨q, hq, heq⟩ := Option.map_eq_some_iff.mp h
        cases heq
        exact .produceResult id q hdb hq
      next => cases h

end DatabaseJobManager
end EasyGameServer
