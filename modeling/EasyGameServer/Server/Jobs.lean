/-
  EasyGameServer.Server.Jobs

  The way of a job.  Pushed by the client thread, it waits for the request
  queue, in it, with the database thread and in the result queue, until the
  client thread dispatches it; `jobs` lists them all, the oldest first.  Only
  a push adds to the list and only a dispatch takes from it; an execution
  changes a job in place.
-/

import EasyGameServer.Server.Sessions
import EasyGameServer.World.Jobs

namespace EasyGameServer

open Lib

namespace Server

/-- The jobs sessions push. -/
inductive Issued : DatabaseJobContext → Prop
  | load (sock : SOCKET) (inPacket : LoginRequest) : Issued (World.loadJob sock inPacket)
  | update (s : ClientSession) : Issued (World.updateJob s)

/-- The jobs on their way, the oldest first. -/
def jobs (st : Server) : List Ticket :=
  st.mDbJobResultQueue.contents ++ st.databaseThread.job ++
    (st.mDbJobRequestQueue.contents ++ st.world.outbox)

/-- A load job is pushed for the session being read, which has asked for it. -/
def PushedByReader (st st' : Server) (t : Ticket) : Prop :=
  st.clientThread = .reading t.pushedBy ∧ t.born = st.world.next ∧
    t.job.mSockKey = (st.world.sessions t.pushedBy).mSocket ∧
    World.Asked st'.world.trace t.pushedBy t.job.playerId

inductive JobsChange (st st' : Server) : Event → Prop
  /-- The jobs move on, or nothing happens to them. -/
  | move (a : Event) (hjobs : st'.jobs = st.jobs) (hpushed : st'.world.pushed = st.world.pushed)
      (houtbox : st'.world.outbox.length ≤ st.world.outbox.length)
      (htrace : World.GoesOn st.world.trace st'.world.trace) : JobsChange st st' a
  /-- A job is pushed, when none is waiting in the outbox. -/
  | push (a : Event) (t : Ticket) (hevent : a = .read ∨ a = .task)
      (hjobs : st'.jobs = st.jobs ++ [t])
      (houtbox : st'.world.outbox = [t])
      (hpushed : st'.world.pushed = st.world.pushed ++ [t])
      (htrace : World.GoesOn st.world.trace st'.world.trace)
      (hload : t.job.isLoad = true → PushedByReader st st' t) : JobsChange st st' a
  /-- A result is dispatched, and perhaps an update is pushed. -/
  | dispatch (t : Ticket) (rest js : List Ticket)
      (hconsume : ∃ q, st.mDbJobResultQueue.consume = some (t, q))
      (hdispatch : st.world.dispatchDatabaseJobResult t.job = some st'.world)
      (hjobs : st.jobs = t :: rest) (hjobs' : st'.jobs = rest ++ js)
      (houtbox : st'.world.outbox = js)
      (hpushed : st'.world.pushed = st.world.pushed ++ js) (hlen : js.length ≤ 1)
      (hload : ∀ t ∈ js, t.job.isLoad = false) : JobsChange st st' .dispatch
  /-- A job is executed. -/
  | execute (ioError : Bool) (t : Ticket) (job : DatabaseJobContext) (before after : List Ticket)
      (hworld : st'.world = st.world) (hjobs : st.jobs = before ++ t :: after)
      (hjobs' : st'.jobs = before ++ { t with job := job } :: after)
      (hsock : job.mSockKey = t.job.mSockKey) (hplayer : job.playerId = t.job.playerId)
      (hload : job.isLoad = t.job.isLoad) : JobsChange st st' (.execute ioError)

variable {st st' : Server}

/-- What is left in the outbox is behind the jobs already on their way. -/
theorem jobs_append {js : List Ticket} (hresult : st'.mDbJobResultQueue = st.mDbJobResultQueue)
    (hdb : st'.databaseThread = st.databaseThread)
    (hrequest : st'.mDbJobRequestQueue = st.mDbJobRequestQueue)
    (houtbox : st'.world.outbox = st.world.outbox ++ js) : st'.jobs = st.jobs ++ js := by
  simp only [jobs, hresult, hdb, hrequest, houtbox, List.append_assoc]

/-- What a dispatch pushes: at most an update. -/
theorem pushed_of_dispatch {w w' : World} {job : DatabaseJobContext}
    (h : w.dispatchDatabaseJobResult job = some w') :
    ∃ js, w'.outbox = w.outbox ++ js ∧ w'.pushed = w.pushed ++ js ∧ js.length ≤ 1 ∧
      ∀ t ∈ js, ∃ s, t.job = World.updateJob s := by
  rcases World.dispatchDatabaseJobResult_cases h with heq | ⟨client, login, -, -, -, -, -, heq⟩
  · rw [heq]
    exact ⟨[], (List.append_nil _).symm, (List.append_nil _).symm, Nat.zero_le _, nofun⟩
  · rw [heq]
    rcases World.loginDone_cases w client login.mPlayerId (doubleToFloat login.mPosX)
      (doubleToFloat login.mPosY) login.mPlayerName with hsilent | ⟨t, s, hjob, hpush⟩
    · exact ⟨[], hsilent.outbox.trans (List.append_nil _).symm,
        hsilent.pushed.trans (List.append_nil _).symm, Nat.zero_le _, nofun⟩
    · refine ⟨[t], hpush.outbox, hpush.pushed, Nat.le_refl _, fun t' ht' => ?_⟩
      rw [List.mem_singleton.mp ht']
      exact ⟨s, hjob⟩

-- ============================================================================
-- What a step does to the jobs
-- ============================================================================

/-- A step, as far as the queues and the table go. -/
inductive QueueMoves (st : Server) : Event → Server → Prop
  /-- The queues are left alone, and one job is pushed at most. -/
  | push (a : Event) (js : List Ticket) (st' : Server) (hplayers : st'.players = st.players)
      (hrequest : st'.mDbJobRequestQueue = st.mDbJobRequestQueue)
      (hresult : st'.mDbJobResultQueue = st.mDbJobResultQueue)
      (hdb : st'.databaseThread = st.databaseThread)
      (houtbox : st'.world.outbox = st.world.outbox ++ js)
      (hpushed : st'.world.pushed = st.world.pushed ++ js)
      (htrace : World.GoesOn st.world.trace st'.world.trace)
      (hone : js = [] ∨ (a = .read ∨ a = .task) ∧ st.world.outbox = [] ∧ ∃ t, js = [t])
      (hissued : ∀ t ∈ js, Issued t.job)
      (hload : ∀ t ∈ js, t.job.isLoad = true → PushedByReader st st' t) : QueueMoves st a st'
  /-- A result is dispatched, and perhaps an update is pushed. -/
  | dispatch (t : Ticket) (q : ProducerConsumerQueue Ticket MAX_DB_JOB) (w : World)
      (js : List Ticket) (hempty : st.world.outbox = [])
      (hq : st.mDbJobResultQueue.consume = some (t, q))
      (hw : st.world.dispatchDatabaseJobResult t.job = some w)
      (houtbox : w.outbox = st.world.outbox ++ js) (hpushed : w.pushed = st.world.pushed ++ js)
      (hlen : js.length ≤ 1) (hupdates : ∀ t ∈ js, ∃ s, t.job = World.updateJob s) :
      QueueMoves st .dispatch { st with world := w, mDbJobResultQueue := q }
  | produceRequest (t : Ticket) (rest : List Ticket) (q : ProducerConsumerQueue Ticket MAX_DB_JOB)
      (houtbox : st.world.outbox = t :: rest) (hq : st.mDbJobRequestQueue.produce t = some q) :
      QueueMoves st .produceRequest { st with
        world := { st.world with outbox := rest }
        mDbJobRequestQueue := q }
  | consumeRequest (t : Ticket) (q : ProducerConsumerQueue Ticket MAX_DB_JOB)
      (hdb : st.databaseThread = .consuming) (hq : st.mDbJobRequestQueue.consume = some (t, q)) :
      QueueMoves st .consumeRequest { st with
        databaseThread := .executing t
        mDbJobRequestQueue := q }
  | execute (ioError : Bool) (t : Ticket) (job : DatabaseJobContext) (players : Players)
      (hdb : st.databaseThread = .executing t)
      (hexec : t.job.execute st.players ioError = some (job, players)) :
      QueueMoves st (.execute ioError) { st with
        databaseThread := .producing { t with job := job }
        players := players }
  | produceResult (t : Ticket) (q : ProducerConsumerQueue Ticket MAX_DB_JOB)
      (hdb : st.databaseThread = .producing t) (hq : st.mDbJobResultQueue.produce t = some q) :
      QueueMoves st .produceResult { st with
        databaseThread := .consuming
        mDbJobResultQueue := q }

/-- A step that leaves the queues alone and pushes nothing. -/
theorem queueMoves_of_silent (a : Event) (hplayers : st'.players = st.players)
    (hrequest : st'.mDbJobRequestQueue = st.mDbJobRequestQueue)
    (hresult : st'.mDbJobResultQueue = st.mDbJobResultQueue)
    (hdb : st'.databaseThread = st.databaseThread)
    (hsilent : World.Silent st.world st'.world) : QueueMoves st a st' :=
  .push a [] st' hplayers hrequest hresult hdb (hsilent.outbox.trans (List.append_nil _).symm)
    (hsilent.pushed.trans (List.append_nil _).symm) hsilent.trace (Or.inl rfl) nofun nofun

theorem step_queueMoves {a : Event} (h : st.step a = some st') : QueueMoves st a st' := by
  cases step_moves h with
  | takeAccepted sendMem recvMem sock =>
      exact queueMoves_of_silent _ rfl rfl rfl rfl
        (World.silent_acceptClient _ sock sendMem recvMem)
  | flush => exact queueMoves_of_silent _ rfl rfl rfl rfl (World.silent_flushClientSend _)
  | wake => exact queueMoves_of_silent _ rfl rfl rfl rfl (.refl _)
  | recvCompletion post dwError data =>
      exact queueMoves_of_silent _ rfl rfl rfl rfl
        (World.silent_recvCompletion _ post dwError data)
  | readAgain this w hempty hthread hbody =>
      rcases World.silent_onReadBody hbody with hsilent | ⟨bytes, hpush, hasked⟩
      · exact queueMoves_of_silent _ rfl rfl rfl rfl hsilent
      · refine .push _ _ _ rfl rfl rfl rfl hpush.outbox hpush.pushed hpush.trace
          (Or.inr ⟨Or.inl rfl, hempty, _, rfl⟩) (fun t ht => ?_) (fun t ht _ => ?_)
        · rw [List.mem_singleton.mp ht]
          exact .load _ _
        · rw [List.mem_singleton.mp ht]
          exact ⟨hthread, rfl, rfl, bytes, hasked, rfl⟩
  | readLeave this w _ _ hbody =>
      exact queueMoves_of_silent _ rfl rfl rfl rfl
        ((World.onReadBody_leave hbody).silent.trans (World.silent_recvExit w this))
  | sendCompletion => exact queueMoves_of_silent _ rfl rfl rfl rfl (World.silent_put _ _ _)
  | timer tick => exact queueMoves_of_silent _ rfl rfl rfl rfl (.of_eq rfl rfl rfl)
  | taskRun w hempty _ htask =>
      rcases World.silent_doTask htask with hsilent | ⟨t, s, hjob, hpush⟩
      · exact queueMoves_of_silent _ rfl rfl rfl rfl hsilent
      · refine .push _ _ _ rfl rfl rfl rfl hpush.outbox hpush.pushed hpush.trace
          (Or.inr ⟨Or.inr rfl, hempty, t, rfl⟩) (fun t' ht' => ?_) (fun t' ht' hload => ?_)
        · rw [List.mem_singleton.mp ht', hjob]
          exact .update s
        · rw [List.mem_singleton.mp ht', hjob] at hload
          cases hload
  | taskNone => exact queueMoves_of_silent _ rfl rfl rfl rfl (.refl _)
  | period currTick =>
      exact queueMoves_of_silent _ rfl rfl rfl rfl (World.silent_onPeriodWork _ currTick)
  | dispatchNone => exact queueMoves_of_silent _ rfl rfl rfl rfl (.refl _)
  | dispatchJob t q w hempty _ hq hw =>
      obtain ⟨js, houtbox, hpushed, hlen, hupdates⟩ := pushed_of_dispatch hw
      exact .dispatch t q w js hempty hq hw houtbox hpushed hlen hupdates
  | accept sock => exact queueMoves_of_silent _ rfl rfl rfl rfl (.of_eq rfl rfl rfl)
  | produceAccepted => exact queueMoves_of_silent _ rfl rfl rfl rfl (.refl _)
  | produceRequest t rest q houtbox hq => exact .produceRequest t rest q houtbox hq
  | consumeRequest t q hdb hq => exact .consumeRequest t q hdb hq
  | execute ioError t job players hdb hexec => exact .execute ioError t job players hdb hexec
  | produceResult t q hdb hq => exact .produceResult t q hdb hq

-- ============================================================================
-- The list of jobs
-- ============================================================================

theorem step_jobs {a : Event} (h : st.step a = some st') : JobsChange st st' a := by
  cases step_queueMoves h with
  | push a js st' _ hrequest hresult hdb houtbox hpushed htrace hone _ hload =>
      have hjobs : st'.jobs = st.jobs ++ js := jobs_append hresult hdb hrequest houtbox
      rcases hone with rfl | ⟨hevent, hempty, t, rfl⟩
      · rw [List.append_nil] at hjobs houtbox hpushed
        exact .move a hjobs hpushed (Nat.le_of_eq (congrArg List.length houtbox)) htrace
      · rw [hempty] at houtbox
        exact .push a t hevent hjobs houtbox hpushed htrace (hload t List.mem_cons_self)
  | dispatch t q w js hempty hq hw houtbox hpushed hlen hupdates =>
      have hcontents := ProducerConsumerQueue.contents_consume hq
      have hjobs : st.jobs = t :: (q.contents ++ st.databaseThread.job ++
          (st.mDbJobRequestQueue.contents ++ st.world.outbox)) := by
        rw [jobs, hcontents]
        rfl
      have houtbox' : w.outbox = js := houtbox.trans (by rw [hempty]; rfl)
      have hload : ∀ t ∈ js, t.job.isLoad = false := by
        intro t' ht'
        obtain ⟨s, hs⟩ := hupdates t' ht'
        rw [hs]
        rfl
      refine .dispatch t _ js ⟨q, hq⟩ hw hjobs ?_ houtbox' hpushed hlen hload
      show q.contents ++ st.databaseThread.job ++
        (st.mDbJobRequestQueue.contents ++ w.outbox) = _
      rw [houtbox, List.append_assoc, List.append_assoc, List.append_assoc, List.append_assoc]
  | produceRequest t rest q houtbox hq =>
      refine .move _ ?_ rfl (by rw [houtbox]; exact Nat.le_succ _) (.refl _)
      have hcontents := ProducerConsumerQueue.contents_produce hq
      show _ ++ (q.contents ++ rest) = _
      rw [hcontents, jobs, houtbox, List.append_assoc _ [t] rest]
      rfl
  | consumeRequest t q hdb hq =>
      refine .move _ ?_ rfl (Nat.le_refl _) (.refl _)
      have hcontents := ProducerConsumerQueue.contents_consume hq
      show _ ++ [t] ++ (q.contents ++ _) = _
      rw [jobs, hdb, hcontents, List.append_assoc]
      simp [DatabaseThread.job]
  | execute ioError t job players hdb hexec =>
      obtain ⟨hsock, hplayer, hload⟩ := DatabaseJobContext.execute_spec hexec
      refine .execute ioError t job st.mDbJobResultQueue.contents
        (st.mDbJobRequestQueue.contents ++ st.world.outbox) rfl ?_ ?_ hsock hplayer hload
      · rw [jobs, hdb, List.append_assoc]
        rfl
      · rw [jobs, List.append_assoc]
        rfl
  | produceResult t q hdb hq =>
      refine .move _ ?_ rfl (Nat.le_refl _) (.refl _)
      have hcontents := ProducerConsumerQueue.contents_produce hq
      show q.contents ++ [] ++ _ = _
      rw [hcontents, jobs, hdb, List.append_nil]
      rfl

end Server
end EasyGameServer
