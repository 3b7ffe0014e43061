/-
  EasyGameServer.DatabaseJobManager.Order

  The jobs keep their order.  Whatever the interleaving, what has been popped,
  what is in the result queue, what the database thread holds and what is in
  the request queue, one after the other, are the jobs pushed so far; and what
  has been done to those that were executed is what executing them one by one,
  in that order, does.
-/

import EasyGameServer.DatabaseJobManager

namespace EasyGameServer

open Lib

-- ============================================================================
-- Serial execution
-- ============================================================================

/-- Executing the jobs `asked` one after another over a table, with the I/O
    errors that may happen, leaves the jobs as `answered`, returns `results`
    and leaves the table in the last argument. -/
inductive Serial (allowed : Bool → Prop) (players : Players) :
    List (JobId × DatabaseJobContext) → List (JobId × DatabaseJobContext) →
      List (JobId × Bool) → Players → Prop
  | nil : Serial allowed players [] [] [] players
  | snoc {asked answered : List (JobId × DatabaseJobContext)} {results : List (JobId × Bool)}
      {db db' : Players} {ioError ok : Bool} {job job' : DatabaseJobContext} (id : JobId)
      (h : Serial allowed players asked answered results db) (hio : allowed ioError)
      (hexec : job.onExecute db ioError = some (ok, job', db')) :
      Serial allowed players (asked ++ [(id, job)])
        (answered ++ [(id, { job' with mSuccess := ok })]) (results ++ [(id, ok)]) db'

namespace Serial

variable {allowed : Bool → Prop} {players db : Players}
  {asked answered : List (JobId × DatabaseJobContext)} {results : List (JobId × Bool)}

/-- The answers come in the order of the jobs. -/
theorem ids (h : Serial allowed players asked answered results db) :
    asked.map Prod.fst = answered.map Prod.fst := by
  induction h with
  | nil => rfl
  | snoc id h hio hexec ih => simp [ih]

/-- `mSuccess` is what `OnExecute` returned. -/
theorem results_eq (h : Serial allowed players asked answered results db) :
    results = answered.map (fun p => (p.1, p.2.mSuccess)) := by
  induction h with
  | nil => rfl
  | snoc id h hio hexec ih => simp [ih]

/-- An answered job was executed over what the jobs before it had left. -/
theorem mem (h : Serial allowed players asked answered results db) {id : JobId}
    {job' : DatabaseJobContext} (hmem : (id, job') ∈ answered) :
    ∃ before job after answered₀ results₀ db₀ ioError db₁,
      asked = before ++ (id, job) :: after ∧
      Serial allowed players before answered₀ results₀ db₀ ∧ allowed ioError ∧
      job.execute db₀ ioError = some (job', db₁) := by
  induction h with
  | nil => cases hmem
  | @snoc asked answered results db db' ioError ok job₀ job₁ id' h hio hexec ih =>
      rcases List.mem_append.mp hmem with hmem | hmem
      · obtain ⟨before, job, after, answered₀, results₀, db₀, ioError, db₁, heq, hrest⟩ := ih hmem
        refine ⟨before, job, after ++ [(id', job₀)], answered₀, results₀, db₀, ioError, db₁, ?_,
          hrest⟩
        rw [heq, List.append_assoc]
        rfl
      · cases List.mem_singleton.mp hmem
        refine ⟨asked, job₀, [], answered, results, db, ioError, db', rfl, h, hio, ?_⟩
        rw [DatabaseJobContext.execute, hexec]
        rfl

end Serial

-- ============================================================================
-- The invariant
-- ============================================================================

/-- The job the database thread has still to execute. -/
def ExecuteDatabaseJobs.toExecute : ExecuteDatabaseJobs → List JobId
  | .executing id => [id]
  | _ => []

/-- The job it has executed and not handed on. -/
def ExecuteDatabaseJobs.executed : ExecuteDatabaseJobs → List JobId
  | .producing id => [id]
  | _ => []

theorem ExecuteDatabaseJobs.held_eq (t : ExecuteDatabaseJobs) :
    t.held = t.executed ++ t.toExecute := by
  cases t <;> rfl

namespace DatabaseJobManager

variable {st st' : DatabaseJobManager} {allowed : Bool → Prop} {players : Players}

/-- Jobs by their names. -/
def objects (jobs : JobId → DatabaseJobContext) (ids : List JobId) :
    List (JobId × DatabaseJobContext) :=
  ids.map (fun id => (id, jobs id))

@[simp] theorem ids_objects (jobs : JobId → DatabaseJobContext) (ids : List JobId) :
    (objects jobs ids).map Prod.fst = ids := by
  rw [objects, List.map_map]
  exact List.map_id ids

theorem objects_append (jobs : JobId → DatabaseJobContext) (l l' : List JobId) :
    objects jobs (l ++ l') = objects jobs l ++ objects jobs l' :=
  List.map_append

@[simp] theorem setJob_self (st : DatabaseJobManager) (id : JobId) (job : DatabaseJobContext) :
    st.setJob id job id = job := if_pos rfl

/-- Setting one job leaves the others. -/
theorem setJob_of_mem (st : DatabaseJobManager) {id : JobId} {ids : List JobId}
    (job : DatabaseJobContext) (h : id ∉ ids) {i : JobId} (hi : i ∈ ids) :
    st.setJob id job i = st.jobs i := by
  have hne : i ≠ id := fun heq => h (heq ▸ hi)
  rw [setJob, if_neg hne]

theorem objects_setJob (st : DatabaseJobManager) {id : JobId} {ids : List JobId}
    (job : DatabaseJobContext) (h : id ∉ ids) :
    objects (st.setJob id job) ids = objects st.jobs ids :=
  List.map_congr_left (fun _ hi => congrArg (Prod.mk _) (st.setJob_of_mem job h hi))

/-- The names of the jobs still to be executed, the oldest first. -/
def waiting (st : DatabaseJobManager) : List JobId :=
  st.databaseThread.toExecute ++ st.mDbJobRequestQueue.contents

/-- The names of the jobs executed and not popped, the oldest first. -/
def ready (st : DatabaseJobManager) : List JobId :=
  st.mDbJobResultQueue.contents ++ st.databaseThread.executed

/-- The jobs are named in the order of their pushes, and those executed have
    been executed serially in that order. -/
structure Ordered (allowed : Bool → Prop) (players : Players) (st : DatabaseJobManager) :
    Prop where
  named : st.pushed.map Prod.fst ++ st.pushing.toList = List.range st.next
  serial : ∃ asked, st.pushed = asked ++ objects st.jobs st.waiting ∧
    Serial allowed players asked (st.popped ++ objects st.jobs st.ready) st.executed st.players

namespace Ordered

/-- Where the jobs pushed so far are. -/
theorem order (h : st.Ordered allowed players) :
    st.pushed.map Prod.fst = st.popped.map Prod.fst ++ st.ready ++ st.waiting := by
  obtain ⟨asked, hpushed, hserial⟩ := h.serial
  rw [hpushed, List.map_append, ids_objects, hserial.ids, List.map_append, ids_objects]

theorem nodup (h : st.Ordered allowed players) : (st.pushed.map Prod.fst).Nodup := by
  have hrange : (List.range st.next).Nodup := List.nodup_range
  rw [← h.named] at hrange
  exact (List.nodup_append.mp hrange).1

theorem mem_lt (h : st.Ordered allowed players) {id : JobId}
    (hid : id ∈ st.pushed.map Prod.fst) : id < st.next := by
  rw [← List.mem_range, ← h.named]
  exact List.mem_append_left _ hid

/-- The next name is none of a job on its way. -/
theorem next_not_mem (h : st.Ordered allowed players) :
    st.next ∉ st.ready ∧ st.next ∉ st.waiting := by
  have hnot : st.next ∉ st.pushed.map Prod.fst := fun hmem => Nat.lt_irrefl _ (h.mem_lt hmem)
  rw [h.order] at hnot
  simp only [List.mem_append, not_or] at hnot
  exact ⟨hnot.1.2, hnot.2⟩

theorem new (allowed : Bool → Prop) (players : Players) :
    (DatabaseJobManager.new players).Ordered allowed players :=
  ⟨rfl, [], rfl, .nil⟩

/-- The job being executed is nowhere else. -/
theorem executing_not_mem (h : st.Ordered allowed players) {id : JobId}
    (hdb : st.databaseThread = .executing id) :
    id ∉ st.mDbJobResultQueue.contents ∧ id ∉ st.mDbJobRequestQueue.contents ∧
      id ∉ st.pushing.toList := by
  have hready : st.ready = st.mDbJobResultQueue.contents := by
    rw [ready, hdb]
    exact List.append_nil _
  have hwaiting : st.waiting = id :: st.mDbJobRequestQueue.contents := by
    rw [waiting, hdb]
    rfl
  have hnodup : (List.range st.next).Nodup := List.nodup_range
  rw [← h.named, h.order, hready, hwaiting, List.append_assoc, List.append_assoc] at hnodup
  obtain ⟨-, hcons, hdisjoint⟩ := List.nodup_append.mp (List.nodup_append.mp hnodup).2.1
  rw [List.cons_append, List.nodup_cons, List.mem_append, not_or] at hcons
  exact ⟨fun hmem => hdisjoint id hmem id List.mem_cons_self rfl, hcons.1⟩

/-- Every step keeps it. -/
theorem step {a : Event} (h : st.Ordered allowed players)
    (hio : ∀ ioError, a = .execute ioError → allowed ioError) (hs : st.step a = some st') :
    st'.Ordered allowed players := by
  obtain ⟨asked, hpushed, hserial⟩ := h.serial
  have hnamed := h.named
  cases step_moves hs with
  | pushRequest job hpushing =>
      obtain ⟨hready, hwaiting⟩ := h.next_not_mem
      refine ⟨?_, asked, ?_, ?_⟩
      · rw [hpushing, Option.toList_none, List.append_nil] at hnamed
        rw [List.range_succ, ← hnamed]
        rfl
      · exact hpushed.trans (congrArg _ (objects_setJob st job hwaiting).symm)
      · show Serial _ _ _ (st.popped ++ objects (st.setJob st.next job) st.ready) _ _
        rwa [objects_setJob st job hready]
  | produceRequest id q hpushing hq =>
      have hcontents := ProducerConsumerQueue.contents_produce hq
      refine ⟨?_, asked, ?_, hserial⟩
      · rw [hpushing] at hnamed
        rw [← hnamed, List.map_append]
        exact List.append_nil _
      · show st.pushed ++ [(id, st.jobs id)]
          = asked ++ objects st.jobs (st.databaseThread.toExecute ++ q.contents)
        rw [hcontents, ← List.append_assoc, objects_append, ← List.append_assoc, hpushed]
        rfl
  | popNone => exact h
  | popResult id q hpushing hq =>
      have hcontents := ProducerConsumerQueue.contents_consume hq
      refine ⟨hnamed, asked, hpushed, ?_⟩
      show Serial _ _ _ (st.popped ++ [(id, st.jobs id)]
        ++ objects st.jobs (q.contents ++ st.databaseThread.executed)) _ _
      rw [ready, hcontents] at hserial
      rwa [List.append_assoc]
  | consumeRequest id q hdb hq =>
      have hcontents := ProducerConsumerQueue.contents_consume hq
      refine ⟨hnamed, asked, ?_, ?_⟩
      · rw [hpushed, waiting, hdb, hcontents]
        rfl
      · rw [ready, hdb] at hserial
        exact hserial
  | execute ioError id ok job players' hdb hexec =>
      obtain ⟨hresult, hrequest, -⟩ := h.executing_not_mem hdb
      refine ⟨hnamed, asked ++ [(id, st.jobs id)], ?_, ?_⟩
      · show st.pushed = asked ++ [(id, st.jobs id)]
          ++ objects (st.setJob id _) st.mDbJobRequestQueue.contents
        rw [objects_setJob st _ hrequest, hpushed, waiting, hdb, List.append_assoc]
        rfl
      · show Serial _ _ _ (st.popped
          ++ objects (st.setJob id _) (st.mDbJobResultQueue.contents ++ [id])) _ _
        have hself : objects (st.setJob id { job with mSuccess := ok }) [id]
            = [(id, { job with mSuccess := ok })] := by
          simp [objects]
        have hready : st.ready = st.mDbJobResultQueue.contents := by
          rw [ready, hdb]
          exact List.append_nil _
        rw [hready] at hserial
        rw [objects_append, objects_setJob st _ hresult, hself, ← List.append_assoc]
        exact hserial.snoc id (hio ioError rfl) hexec
  | produceResult id q hdb hq =>
      have hcontents := ProducerConsumerQueue.contents_produce hq
      refine ⟨hnamed, asked, ?_, ?_⟩
      · rw [hpushed, waiting, hdb]
        rfl
      · show Serial _ _ _ (st.popped ++ objects st.jobs (q.contents ++ [])) _ _
        rw [ready, hdb] at hserial
        rwa [hcontents, List.append_nil]

end Ordered

/-- Only these I/O errors happen. -/
def Meets (allowed : Bool → Prop) (_ : DatabaseJobManager) (a : Event) : Prop :=
  ∀ ioError, a = .execute ioError → allowed ioError

/-- It holds in every run. -/
theorem ordered_of_reachable (hr : (system players).ReachableBy (Meets allowed) st) :
    st.Ordered allowed players := by
  induction hr with
  | init h =>
      rw [h]
      exact .new allowed players
  | step _ hok hs ih => exact ih.step hok hs

/-- The jobs pushed so far are the jobs popped, those in the result queue, the
    one the database thread holds and those in the request queue, in this
    order.  Each is executed once, in the order of the pushes and before it is
    popped, and carries what its `OnExecute` returned. -/
theorem jobs_in_order (players : Players) {st : DatabaseJobManager}
    (hr : (system players).Reachable st) :
    st.pushed.map Prod.fst
        = st.popped.map Prod.fst ++ st.mDbJobResultQueue.contents ++ st.databaseThread.held
          ++ st.mDbJobRequestQueue.contents ∧
      (st.pushed.map Prod.fst).Nodup ∧
      st.executed.map Prod.fst
        = st.popped.map Prod.fst ++ st.mDbJobResultQueue.contents ++ st.databaseThread.executed ∧
      ∀ p ∈ st.popped, (p.1, p.2.mSuccess) ∈ st.executed := by
  have h : st.Ordered (fun _ => True) players :=
    ordered_of_reachable (hr.mono (fun _ _ _ _ _ => trivial))
  obtain ⟨asked, -, hserial⟩ := h.serial
  have hresults := hserial.results_eq
  refine ⟨?_, h.nodup, ?_, fun p hp => ?_⟩
  · rw [h.order, ready, waiting, ExecuteDatabaseJobs.held_eq]
    simp only [List.append_assoc]
  · rw [hresults, List.map_map, List.append_assoc, ← ready]
    show (st.popped ++ objects st.jobs st.ready).map Prod.fst = _
    rw [List.map_append, ids_objects]
  · rw [hresults]
    exact List.mem_map_of_mem (List.mem_append_left _ hp)

/-- A player is created and loaded. -/
def createAndLoad : List Event :=
  [.pushRequest ⟨0, false, .create { mPlayerId := 7, mPosX := 5 }⟩, .produceRequest,
    .pushRequest ⟨3, false, .load { mPlayerId := 7 }⟩, .produceRequest,
    .consumeRequest, .execute false, .produceResult,
    .consumeRequest, .execute false, .produceResult, .popResult, .popResult]

theorem exists_created :
    ∃ st job, (system (fun _ => none)).run (new (fun _ => none)) createAndLoad = some st ∧
      st.pushed = [(0, ⟨0, false, .create { mPlayerId := 7, mPosX := 5 }⟩),
        (1, ⟨3, false, .load { mPlayerId := 7 }⟩)] ∧
      (1, job) ∈ st.popped ∧ st.popped.map Prod.fst = [0, 1] :=
  ⟨_, _, rfl, rfl, List.mem_cons_of_mem _ List.mem_cons_self, rfl⟩

theorem jobs_in_order_created :
    ∃ st : DatabaseJobManager, st.popped.map Prod.fst = [0, 1] ∧
      st.pushed.map Prod.fst
        = st.popped.map Prod.fst ++ st.mDbJobResultQueue.contents ++ st.databaseThread.held
          ++ st.mDbJobRequestQueue.contents ∧
      ∀ p ∈ st.popped, (p.1, p.2.mSuccess) ∈ st.executed := by
  obtain ⟨st, _, hrun, -, -, hpopped⟩ := exists_created
  obtain ⟨horder, -, -, hresult⟩ := jobs_in_order _ (System.Reachable.run (.init rfl) hrun)
  exact ⟨st, hpopped, horder, hresult⟩

end DatabaseJobManager
end EasyGameServer
