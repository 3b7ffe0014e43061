/-
  EasyGameServer.Server.DatabaseJobs

  The server's client thread is one of the clients `DatabaseJobManager` allows.
  A run of the server stands for one of the manager: a job that is pushed waits
  in the outbox as the manager's client waits in its `Produce`, and the tickets
  in the queues stand for the objects.  What holds of every run of the manager
  therefore holds of the server's jobs.
-/

import EasyGameServer.Server.Saves
import EasyGameServer.DatabaseJobManager.Loads

namespace EasyGameServer

open Lib

namespace Server

-- ============================================================================
-- The simulation
-- ============================================================================

/-- The database threads are at the same place, with the same job. -/
inductive SamePlace (jobs : JobId → DatabaseJobContext) :
    ExecuteDatabaseJobs → DatabaseThread → Prop
  | consuming : SamePlace jobs .consuming .consuming
  | executing (id : JobId) (t : Ticket) (h : jobs id = t.job) :
      SamePlace jobs (.executing id) (.executing t)
  | producing (id : JobId) (t : Ticket) (h : jobs id = t.job) :
      SamePlace jobs (.producing id) (.producing t)

/-- The manager is where the server's part of it is. -/
structure StandsFor (st : Server) (m : DatabaseJobManager) : Prop where
  players : m.players = st.players
  requests : m.mDbJobRequestQueue.contents.map m.jobs
    = st.mDbJobRequestQueue.contents.map Ticket.job
  results : m.mDbJobResultQueue.contents.map m.jobs
    = st.mDbJobResultQueue.contents.map Ticket.job
  databaseThread : SamePlace m.jobs m.databaseThread st.databaseThread
  outbox : m.pushing.toList.map m.jobs = st.world.outbox.map Ticket.job
  pushed : m.pushed.map Prod.snd ++ st.world.outbox.map Ticket.job
    = st.world.pushed.map Ticket.job

variable {st st' : Server} {m : DatabaseJobManager} {allowed : Bool → Prop} {db : Players}

/-- Queues with the same jobs in them take the same job. -/
theorem produce_alike {jobs : JobId → DatabaseJobContext} {id : JobId} {t : Ticket}
    {q₁ : ProducerConsumerQueue JobId MAX_DB_JOB} {q q' : ProducerConsumerQueue Ticket MAX_DB_JOB}
    (hsame : q₁.contents.map jobs = q.contents.map Ticket.job) (hjob : jobs id = t.job)
    (hq : q.produce t = some q') :
    ∃ q₁', q₁.produce id = some q₁' ∧ q₁'.contents.map jobs = q'.contents.map Ticket.job := by
  have hlength := congrArg List.length hsame
  rw [List.length_map, List.length_map] at hlength
  obtain ⟨q₁', hq₁⟩ := ProducerConsumerQueue.exists_produce (q := q₁) id
    (by rw [hlength]; exact ProducerConsumerQueue.length_lt_of_produce hq)
  refine ⟨q₁', hq₁, ?_⟩
  rw [ProducerConsumerQueue.contents_produce hq₁, ProducerConsumerQueue.contents_produce hq,
    List.map_append, List.map_append, hsame]
  exact congrArg (_ ++ [·]) hjob

/-- They give the same job. -/
theorem consume_alike {jobs : JobId → DatabaseJobContext} {t : Ticket}
    {q₁ : ProducerConsumerQueue JobId MAX_DB_JOB} {q q' : ProducerConsumerQueue Ticket MAX_DB_JOB}
    (hsame : q₁.contents.map jobs = q.contents.map Ticket.job) (hq : q.consume = some (t, q')) :
    ∃ id q₁', q₁.consume = some (id, q₁') ∧ jobs id = t.job ∧
      q₁'.contents.map jobs = q'.contents.map Ticket.job := by
  rw [ProducerConsumerQueue.contents_consume hq] at hsame
  obtain ⟨id, rest, hids, hjob, hrest⟩ := List.map_eq_cons_iff.mp hsame
  obtain ⟨q₁', hq₁, hcontents⟩ := ProducerConsumerQueue.exists_consume hids
  exact ⟨id, q₁', hq₁, hjob, by rw [hcontents]; exact hrest⟩

/-- Only the job that is held matters. -/
theorem SamePlace.congr {jobs jobs' : JobId → DatabaseJobContext} {t : ExecuteDatabaseJobs}
    {t' : DatabaseThread} (h : SamePlace jobs t t') (heq : ∀ id ∈ t.held, jobs' id = jobs id) :
    SamePlace jobs' t t' := by
  cases h with
  | consuming => exact .consuming
  | executing id t h => exact .executing id t ((heq id List.mem_cons_self).trans h)
  | producing id t h => exact .producing id t ((heq id List.mem_cons_self).trans h)

/-- The manager, started over this table, reaches this state with these I/O
    errors. -/
abbrev ManagerReaches (allowed : Bool → Prop) (db : Players) (m : DatabaseJobManager) : Prop :=
  (DatabaseJobManager.system db).ReachableBy (DatabaseJobManager.Meets allowed) m

/-- A state the manager reaches stands for this state. -/
def Stands (allowed : Bool → Prop) (db : Players) (st : Server) : Prop :=
  ∃ m, ManagerReaches allowed db m ∧ StandsFor st m

theorem ManagerReaches.step {m' : DatabaseJobManager} {a : DatabaseJobManager.Event}
    (hr : ManagerReaches allowed db m) (hstep : m.step a = some m')
    (hmeets : ∀ ioError, a = .execute ioError → allowed ioError) : ManagerReaches allowed db m' :=
  System.ReachableBy.step hr hmeets hstep

namespace StandsFor

theorem pushing_eq_none (h : StandsFor st m) (hempty : st.world.outbox = []) :
    m.pushing = none := by
  have hout := h.outbox
  rw [hempty] at hout
  cases hp : m.pushing with
  | none => rfl
  | some id =>
      rw [hp] at hout
      cases hout

/-- A step that leaves the queues alone and pushes one job at most. -/
theorem advance (h : StandsFor st m) (hr : ManagerReaches allowed db m)
    {js : List Ticket} (hplayers : st'.players = st.players)
    (hrequest : st'.mDbJobRequestQueue = st.mDbJobRequestQueue)
    (hresult : st'.mDbJobResultQueue = st.mDbJobResultQueue)
    (hdb : st'.databaseThread = st.databaseThread)
    (houtbox : st'.world.outbox = st.world.outbox ++ js)
    (hpushed : st'.world.pushed = st.world.pushed ++ js)
    (hjs : js = [] ∨ st.world.outbox = [] ∧ ∃ t, js = [t]) : Stands allowed db st' := by
  rcases hjs with rfl | ⟨hempty, t, rfl⟩
  · rw [List.append_nil] at houtbox hpushed
    refine ⟨m, hr, ?_⟩
    exact {
      players := h.players.trans hplayers.symm
      requests := by rw [hrequest]; exact h.requests
      results := by rw [hresult]; exact h.results
      databaseThread := by rw [hdb]; exact h.databaseThread
      outbox := by rw [houtbox]; exact h.outbox
      pushed := by rw [houtbox, hpushed]; exact h.pushed }
  · have hnone := h.pushing_eq_none hempty
    obtain ⟨hready, hwaiting⟩ := (DatabaseJobManager.ordered_of_reachable hr).next_not_mem
    have hstep : m.step (.pushRequest t.job) = some { m with
        pushing := some m.next
        jobs := m.setJob m.next t.job
        next := m.next + 1 } := by
      simp only [DatabaseJobManager.step, hnone]
    refine ⟨_, hr.step hstep (fun _ hevent => by cases hevent), ?_⟩
    have hout := h.pushed
    rw [hempty, List.map_nil, List.append_nil] at hout
    exact {
      players := h.players.trans hplayers.symm
      requests := by
        rw [hrequest, ← h.requests]
        exact List.map_congr_left (fun id hid => m.setJob_of_mem _
          (fun hmem => hwaiting (List.mem_append_right _ hmem)) hid)
      results := by
        rw [hresult, ← h.results]
        exact List.map_congr_left (fun id hid => m.setJob_of_mem _
          (fun hmem => hready (List.mem_append_left _ hmem)) hid)
      databaseThread := by
        rw [hdb]
        refine h.databaseThread.congr (fun id hid => m.setJob_of_mem _ ?_ hid)
        rw [ExecuteDatabaseJobs.held_eq, List.mem_append]
        rintro (hmem | hmem)
        · exact hready (List.mem_append_right _ hmem)
        · exact hwaiting (List.mem_append_left _ hmem)
      outbox := by simp [houtbox, hempty]
      pushed := by simp [houtbox, hpushed, hempty, hout] }

/-- The client thread takes a result. -/
theorem popResult (h : StandsFor st m) (hr : ManagerReaches allowed db m)
    (hempty : st.world.outbox = []) {t : Ticket} {q : ProducerConsumerQueue Ticket MAX_DB_JOB}
    (hq : st.mDbJobResultQueue.consume = some (t, q)) :
    Stands allowed db { st with mDbJobResultQueue := q } := by
  obtain ⟨id, q', hq', -, hresults⟩ := consume_alike h.results hq
  have hstep : m.step .popResult = some { m with
      mDbJobResultQueue := q'
      popped := m.popped ++ [(id, m.jobs id)] } := by
    simp only [DatabaseJobManager.step, h.pushing_eq_none hempty, hq']
  refine ⟨_, hr.step hstep (fun _ hevent => by cases hevent), ?_⟩
  exact { h with results := hresults }

/-- The request queue takes the job the client thread has pushed. -/
theorem produceRequest (h : StandsFor st m) (hr : ManagerReaches allowed db m)
    {t : Ticket} {ts : List Ticket} {q : ProducerConsumerQueue Ticket MAX_DB_JOB}
    (houtbox : st.world.outbox = t :: ts) (hq : st.mDbJobRequestQueue.produce t = some q) :
    Stands allowed db { st with
      world := { st.world with outbox := ts }
      mDbJobRequestQueue := q } := by
  have hout := h.outbox
  rw [houtbox] at hout
  obtain ⟨id, rest, hids, hjob, hrest⟩ := List.map_eq_cons_iff.mp hout
  obtain ⟨hpushing, rfl⟩ : m.pushing = some id ∧ rest = [] := by
    cases hp : m.pushing with
    | none => rw [hp] at hids; cases hids
    | some i => rw [hp] at hids; cases hids; exact ⟨rfl, rfl⟩
  have hts : ts = [] := List.map_eq_nil_iff.mp hrest.symm
  obtain ⟨q', hq', hrequests⟩ := produce_alike h.requests hjob hq
  have hstep : m.step .produceRequest = some { m with
      mDbJobRequestQueue := q'
      pushing := none
      pushed := m.pushed ++ [(id, m.jobs id)] } := by
    simp only [DatabaseJobManager.step, hpushing, hq', Option.map_some]
  have hpushed := h.pushed
  rw [houtbox, hts] at hpushed
  subst hts
  refine ⟨_, hr.step hstep (fun _ hevent => by cases hevent), ?_⟩
  exact { h with
    requests := hrequests
    outbox := rfl
    pushed := by
      rw [List.map_append, ← hpushed]
      simp [hjob] }

/-- The database thread takes a job. -/
theorem consumeRequest (h : StandsFor st m) (hr : ManagerReaches allowed db m)
    {t : Ticket} {q : ProducerConsumerQueue Ticket MAX_DB_JOB}
    (hdb : st.databaseThread = .consuming) (hq : st.mDbJobRequestQueue.consume = some (t, q)) :
    Stands allowed db { st with databaseThread := .executing t, mDbJobRequestQueue := q } := by
  obtain ⟨id, q', hq', hjob, hrequests⟩ := consume_alike h.requests hq
  have hplace : m.databaseThread = .consuming := by
    have hsame := h.databaseThread
    rw [hdb] at hsame
    generalize m.databaseThread = place at hsame
    cases hsame
    rfl
  have hstep : m.step .consumeRequest = some { m with
      mDbJobRequestQueue := q'
      databaseThread := .executing id } := by
    simp only [DatabaseJobManager.step, hplace, hq', Option.map_some]
  refine ⟨_, hr.step hstep (fun _ hevent => by cases hevent), ?_⟩
  exact { h with
    requests := hrequests
    databaseThread := .executing id t hjob }

/-- It executes its job. -/
theorem execute (h : StandsFor st m) (hr : ManagerReaches allowed db m)
    {ioError : Bool} (hio : allowed ioError) {t : Ticket} {job : DatabaseJobContext}
    {players : Players} (hdb : st.databaseThread = .executing t)
    (hexec : t.job.execute st.players ioError = some (job, players)) :
    Stands allowed db { st with
      databaseThread := .producing { t with job := job }
      players := players } := by
  obtain ⟨id, hplace, hjob⟩ : ∃ id, m.databaseThread = .executing id ∧ m.jobs id = t.job := by
    have hsame := h.databaseThread
    rw [hdb] at hsame
    generalize m.databaseThread = place at hsame
    cases hsame with
    | executing id t hjob => exact ⟨id, rfl, hjob⟩
  obtain ⟨⟨ok, done, db'⟩, hon, heq⟩ := Option.map_eq_some_iff.mp hexec
  cases heq
  rw [← hjob, ← h.players, ← DatabaseJobContext.callOnExecute_eq] at hon
  have hstep : m.step (.execute ioError) = some { m with
      databaseThread := .producing id
      jobs := m.setJob id { done with mSuccess := ok }
      players := db'
      executed := m.executed ++ [(id, ok)] } := by
    simp only [DatabaseJobManager.step, DatabaseJobManager.executeJob, hplace, hon, Option.map_some]
  obtain ⟨hresult, hrequest, hpushing⟩ :=
    (DatabaseJobManager.ordered_of_reachable hr).executing_not_mem hplace
  have hmeets : ∀ e, DatabaseJobManager.Event.execute ioError = .execute e → allowed e := by
    intro e hevent
    cases hevent
    exact hio
  refine ⟨_, hr.step hstep hmeets, ?_⟩
  exact { h with
    players := rfl
    requests := by
      rw [← h.requests]
      exact List.map_congr_left (fun i hi => m.setJob_of_mem _ hrequest hi)
    results := by
      rw [← h.results]
      exact List.map_congr_left (fun i hi => m.setJob_of_mem _ hresult hi)
    databaseThread := .producing id _ (m.setJob_self id _)
    outbox := by
      rw [← h.outbox]
      exact List.map_congr_left (fun i hi => m.setJob_of_mem _ hpushing hi) }

/-- It hands the result on. -/
theorem produceResult (h : StandsFor st m) (hr : ManagerReaches allowed db m)
    {t : Ticket} {q : ProducerConsumerQueue Ticket MAX_DB_JOB}
    (hdb : st.databaseThread = .producing t) (hq : st.mDbJobResultQueue.produce t = some q) :
    Stands allowed db { st with databaseThread := .consuming, mDbJobResultQueue := q } := by
  obtain ⟨id, hplace, hjob⟩ : ∃ id, m.databaseThread = .producing id ∧ m.jobs id = t.job := by
    have hsame := h.databaseThread
    rw [hdb] at hsame
    generalize m.databaseThread = place at hsame
    cases hsame with
    | producing id t hjob => exact ⟨id, rfl, hjob⟩
  obtain ⟨q', hq', hresults⟩ := produce_alike h.results hjob hq
  have hstep : m.step .produceResult = some { m with
      mDbJobResultQueue := q'
      databaseThread := .consuming } := by
    simp only [DatabaseJobManager.step, hplace, hq', Option.map_some]
  refine ⟨_, hr.step hstep (fun _ hevent => by cases hevent), ?_⟩
  exact { h with
    results := hresults
    databaseThread := .consuming }

end StandsFor

/-- Every run of the server stands for a run of the manager. -/
theorem simulation (allowed : Bool → Prop) (db : Players) :
    System.Simulation (systemOn db) (fun _ a => ∀ e, a = .execute e → allowed e)
      (DatabaseJobManager.system db) (DatabaseJobManager.Meets allowed) StandsFor where
  init := by
    rintro _ ⟨⟨tick, answers, players, rfl⟩, rfl⟩
    exact ⟨_, rfl, rfl, rfl, rfl, .consuming, rfl, rfl⟩
  step := by
    intro st a st' m hr h hok hstep
    cases step_queueMoves hstep with
    | push a js st' hplayers hrequest hresult hdb houtbox hpushed _ hone =>
        exact h.advance hr hplayers hrequest hresult hdb houtbox hpushed
          (hone.imp_right And.right)
    | dispatch t q w js hempty hq hw houtbox hpushed hlen =>
        obtain ⟨m₁, hr₁, h₁⟩ := h.popResult hr hempty hq
        refine h₁.advance hr₁ rfl rfl rfl rfl houtbox hpushed ?_
        match js, hlen with
        | [], _ => exact Or.inl rfl
        | [t'], _ => exact Or.inr ⟨hempty, t', rfl⟩
    | produceRequest t ts q houtbox hq => exact h.produceRequest hr houtbox hq
    | consumeRequest t q hdb hq => exact h.consumeRequest hr hdb hq
    | execute ioError t job players hdb hexec =>
        exact h.execute hr (hok ioError rfl) hdb hexec
    | produceResult t q hdb hq => exact h.produceResult hr hdb hq

-- ============================================================================
-- What the server's loads return
-- ============================================================================

/-- The result of a load that is about to be dispatched shows its player as the
    jobs the server pushed before it have left it. -/
theorem load_dispatched (db : Players) {st : Server} {t : Ticket}
    {q : ProducerConsumerQueue Ticket MAX_DB_JOB}
    (hr : (systemOn db).ReachableBy (fun _ a => ∀ e, a = .execute e → e = false) st)
    (hq : st.mDbJobResultQueue.consume = some (t, q)) (hload : t.job.isLoad = true) :
    ∃ before asked after, st.world.pushed.map Ticket.job = before ++ asked :: after ∧
      (asked.isLoad = true ∧ asked.playerId = t.job.playerId ∧
        asked.mSockKey = t.job.mSockKey) ∧
      t.job.Answers (db.roster.after before t.job.playerId) := by
  obtain ⟨m, hm, h⟩ := (simulation (· = false) db).holds hr
  obtain ⟨id, q', hq', hjob, -⟩ := consume_alike h.results hq
  have hmem : (id, t.job) ∈ m.popped ++ DatabaseJobManager.objects m.jobs m.ready := by
    refine List.mem_append_right _ (List.mem_map.mpr ⟨id, ?_, by rw [hjob]⟩)
    rw [DatabaseJobManager.ready, ProducerConsumerQueue.contents_consume hq']
    exact List.mem_cons_self
  obtain ⟨before, job, after, db₀, db₁, hpushed, hroster, hexec⟩ :=
    DatabaseJobManager.exists_pushed hm hmem
  obtain ⟨hsock, hplayer, hisLoad⟩ := DatabaseJobContext.execute_spec hexec
  refine ⟨before.map Prod.snd, job, after.map Prod.snd ++ st.world.outbox.map Ticket.job, ?_,
    ⟨hisLoad.symm.trans hload, hplayer.symm, hsock.symm⟩, ?_⟩
  · rw [← h.pushed, hpushed, List.map_append, List.append_assoc]
    rfl
  · obtain ⟨login, hlogin⟩ : ∃ login, job.data = .load login := by
      rw [hload] at hisLoad
      unfold DatabaseJobContext.isLoad at hisLoad
      split at hisLoad
      next login hdata => exact ⟨login, hdata⟩
      next => cases hisLoad
    have hpid : t.job.playerId = login.mPlayerId := by
      rw [hplayer, DatabaseJobContext.playerId, hlogin]
    rw [hpid, ← hroster]
    exact DatabaseJobContext.answers_execute hlogin hexec

end Server
end EasyGameServer
