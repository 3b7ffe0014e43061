/-
  EasyGameServer.Server.Saving

  How old a row can be.  The periodic update of a logged-on session is queued
  at most a minute ahead, and a timer pass leaves nothing queued that is due.
  So between two passes a minute apart a session that stays connected has
  pushed an update of where it is, and what the database has to do changes the
  table only by jobs that are pushed.
-/

import EasyGameServer.Server.Restoring

namespace EasyGameServer

open Lib

namespace World

/-- Nothing is queued further ahead than its interval. -/
def InTime (s : Scheduler SessionId SessionTask) : Prop :=
  ∀ e ∈ s.mTaskQueue, e.mExecutionTick ≤ s.mCurrentTick.toNat + e.mTask.interval.toNat

variable {s : Scheduler SessionId SessionTask} {w w' : World}

theorem inTime_new (tick : UInt32) : InTime (.new tick) :=
  fun _ he => absurd he List.not_mem_nil

/-- A sum that wraps is only smaller. -/
theorem InTime.pushTask (h : InTime s) (owner : SessionId) (task : SessionTask) :
    InTime (s.pushTask owner task task.interval) := by
  intro e he
  rcases PriorityQueue.mem_push.mp he with rfl | he
  · show ((task.interval + s.mCurrentTick).toNat : Int) ≤ s.mCurrentTick.toNat + task.interval.toNat
    rw [UInt32.toNat_add]
    have hle := Nat.mod_le (task.interval.toNat + s.mCurrentTick.toNat) (2 ^ 32)
    omega
  · exact h e he

/-- Time goes on. -/
theorem InTime.updateTick (h : InTime s) {tick : UInt32} (hle : s.mCurrentTick ≤ tick) :
    InTime (s.updateTick tick) := by
  intro e he
  have hqueued := h e he
  have hnat : s.mCurrentTick.toNat ≤ tick.toNat := UInt32.le_iff_toNat_le.mp hle
  show e.mExecutionTick ≤ (tick.toNat : Int) + e.mTask.interval.toNat
  omega

theorem InTime.runTask (h : InTime w.scheduler) (e : JobElement SessionId SessionTask) :
    InTime (w.runTask e).scheduler := by
  rw [scheduler_runTask]
  split
  · exact h.pushTask e.mOwner e.mTask
  · exact h

/-- What an iteration of `DoTasks` leaves was queued, or is a successor. -/
theorem InTime.ran (h : InTime w.scheduler) {e : JobElement SessionId SessionTask}
    {rest : List (JobElement SessionId SessionTask)} (hran : TaskRan w w' e rest) :
    InTime w'.scheduler := by
  have hqueued : ∀ f ∈ e :: rest, f ∈ w.scheduler.mTaskQueue := fun f hf =>
    hran.before.mem_iff.mpr hf
  have hsuccessor : (w.successor e).mExecutionTick
      ≤ w.scheduler.mCurrentTick.toNat + (w.successor e).mTask.interval.toNat :=
    (h.pushTask e.mOwner e.mTask) (w.successor e) (PriorityQueue.mem_push.mpr (Or.inl rfl))
  intro f hf
  have hin := hran.after.mem_iff.mp hf
  rw [hran.tick]
  split at hin
  · rcases List.mem_cons.mp hin with rfl | hin
    · split
      · exact h e (hqueued e List.mem_cons_self)
      · exact hsuccessor
    · exact h f (hqueued f (List.mem_cons_of_mem _ hin))
  · exact h f (hqueued f (List.mem_cons_of_mem _ hin))

/-- A login runs both tasks for the first time. -/
theorem InTime.loginDone (h : InTime w.scheduler) (this : SessionId) (pid : Int32) (x y : CFloat)
    (name : CString maxNameLen) : InTime (w.loginDone this pid x y name).scheduler := by
  unfold World.loginDone
  extract_lets w₁ outPacket w₂ w₃
  have hbefore : InTime w₃.scheduler := h
  exact (hbefore.runTask ⟨this, .onTick, 0⟩).runTask ⟨this, .onDbUpdate, 0⟩

theorem mem_runTask {f : JobElement SessionId SessionTask} (h : f ∈ w.scheduler.mTaskQueue)
    (e : JobElement SessionId SessionTask) : f ∈ (w.runTask e).scheduler.mTaskQueue := by
  rw [scheduler_runTask]
  split
  · exact PriorityQueue.mem_push.mpr (Or.inr h)
  · exact h

theorem mem_loginDone {f : JobElement SessionId SessionTask} (h : f ∈ w.scheduler.mTaskQueue)
    (this : SessionId) (pid : Int32) (x y : CFloat) (name : CString maxNameLen) :
    f ∈ (w.loginDone this pid x y name).scheduler.mTaskQueue := by
  unfold loginDone
  extract_lets w₁ outPacket w₂ w₃
  have hbefore : f ∈ w₃.scheduler.mTaskQueue := h
  exact mem_runTask (mem_runTask hbefore ⟨this, .onTick, 0⟩) ⟨this, .onDbUpdate, 0⟩

/-- Running the front leaves every other task in the queue. -/
theorem mem_doTask_of_ne {e f : JobElement SessionId SessionTask}
    (htop : w.scheduler.mTaskQueue.top = some e) (hf : f ∈ w.scheduler.mTaskQueue)
    (hne : f ≠ e) : f ∈ (w.runTask e).scheduler.pop.mTaskQueue := by
  rw [scheduler_runTask]
  split
  · have hpush := PriorityQueue.push_perm w.scheduler.mTaskQueue (w.successor e)
    have hpop := PriorityQueue.pop_perm
      (Scheduler.top_pushTask htop e.mOwner e.mTask e.mTask.interval)
    have hall : ((if e.mExecutionTick > (w.successor e).mExecutionTick then w.successor e else e) ::
        (w.scheduler.pushTask e.mOwner e.mTask e.mTask.interval).pop.mTaskQueue.toList).Perm
        (w.successor e :: w.scheduler.mTaskQueue.toList) := hpop.trans hpush
    split at hall
    next =>
      -- off goes the successor, and the queue is as it was
      exact hall.cons_inv.mem_iff.mpr hf
    next =>
      exact (List.mem_cons.mp (hall.mem_iff.mpr (List.mem_cons_of_mem _ hf))).resolve_left hne
  · have hin := (PriorityQueue.pop_perm htop).mem_iff.mpr hf
    exact (List.mem_cons.mp hin).resolve_left hne

theorem mCurrentTick_runTask (w : World) (e : JobElement SessionId SessionTask) :
    (w.runTask e).scheduler.mCurrentTick = w.scheduler.mCurrentTick := by
  rw [scheduler_runTask]
  split
  · rfl
  · rfl

theorem mCurrentTick_loginDone (w : World) (this : SessionId) (pid : Int32) (x y : CFloat)
    (name : CString maxNameLen) :
    (w.loginDone this pid x y name).scheduler.mCurrentTick = w.scheduler.mCurrentTick := by
  unfold loginDone
  extract_lets w₁ outPacket w₂ w₃
  exact (mCurrentTick_runTask (w₃.onTick this) ⟨this, .onDbUpdate, 0⟩).trans
    (mCurrentTick_runTask w₃ ⟨this, .onTick, 0⟩)

end World

namespace Server

variable {st mid st' : Server}

-- ============================================================================
-- The clock
-- ============================================================================

/-- Only the timer reads the clock. -/
theorem mCurrentTick_step {a : Event} (h : st.step a = some st') :
    st'.world.scheduler.mCurrentTick = st.world.scheduler.mCurrentTick ∨
      ∃ tick, a = .timer tick ∧ st'.world.scheduler.mCurrentTick = tick := by
  have hsame : ∀ {w w' : World}, w'.scheduler = w.scheduler →
      w'.scheduler.mCurrentTick = w.scheduler.mCurrentTick := fun heq => congrArg _ heq
  cases step_moves h with
  | takeAccepted sendMem recvMem sock =>
      refine Or.inl (hsame ?_)
      show (st.world.acceptClient sock sendMem recvMem).scheduler = _
      rw [World.acceptClient_eq]
      exact World.scheduler_recvExit _ _
  | flush => exact Or.inl (hsame (World.scheduler_flushClientSend _))
  | recvCompletion post dwError data =>
      exact Or.inl (hsame (World.scheduler_recvCompletion _ post dwError data))
  | readAgain this w _ _ hbody => exact Or.inl (hsame (World.scheduler_onReadBody hbody))
  | readLeave this w _ _ hbody =>
      exact Or.inl (hsame ((World.scheduler_recvExit w this).trans
        (World.onReadBody_leave hbody).scheduler))
  | timer tick => exact Or.inr ⟨tick, rfl, rfl⟩
  | taskRun w _ _ htask =>
      obtain ⟨e, rest, hran⟩ := World.doTask_spec htask
      exact Or.inl hran.tick
  | period currTick => exact Or.inl (hsame (World.scheduler_onPeriodWork _ currTick))
  | dispatchJob t q w _ _ hq hw =>
      rcases World.dispatchDatabaseJobResult_cases hw with
        rfl | ⟨client, login, -, -, -, -, -, rfl⟩
      · exact Or.inl rfl
      · exact Or.inl (World.mCurrentTick_loginDone st.world client login.mPlayerId
          (doubleToFloat login.mPosX) (doubleToFloat login.mPosY) login.mPlayerName)
  | _ => exact Or.inl rfl

/-- The timer never reads an earlier tick. -/
def KeepsTime (st : Server) : Event → Prop
  | .timer tick => st.world.scheduler.mCurrentTick ≤ tick
  | _ => True

theorem isInvariant_inTime :
    system.IsInvariant KeepsTime (fun st => World.InTime st.world.scheduler) where
  init := by
    rintro _ ⟨tick, answers, players, rfl⟩
    exact World.inTime_new tick
  step := by
    intro st a st' _ h hok hstep
    cases step_schedules hstep with
    | same _ hqueue =>
        have hsched : st'.world.scheduler
            = st.world.scheduler.updateTick st'.world.scheduler.mCurrentTick := by
          rw [Scheduler.updateTick, ← hqueue]
        rw [hsched]
        refine h.updateTick ?_
        rcases mCurrentTick_step hstep with hsame | ⟨tick, rfl, htick⟩
        · rw [hsame]
          exact UInt32.le_refl _
        · rw [htick]
          exact hok
    | ran e rest hran => exact h.ran hran
    | login t q client login hq hsuccess hdata hreg hdone =>
        rw [hdone]
        exact h.loginDone client login.mPlayerId (doubleToFloat login.mPosX)
          (doubleToFloat login.mPosY) login.mPlayerName

/-- Right after the loop of `DoTasks` nothing queued is due. -/
theorem isInvariant_nothingDue :
    system.IsInvariant System.always (fun st => st.clientThread = .periodWork →
      ∀ e ∈ st.world.scheduler.mTaskQueue,
        (st.world.scheduler.mCurrentTick.toNat : Int) < e.mExecutionTick) where
  init := by
    rintro _ ⟨tick, answers, players, rfl⟩ hthread
    cases hthread
  step := by
    intro st a st' _ h _ hstep hthread
    cases step_moves hstep with
    | takeAccepted sendMem recvMem sock q _ htop => cases htop.symm.trans hthread
    | recvCompletion post dwError data =>
        simp only at hthread
        split at hthread
        · cases hthread
        · cases hthread
    | readAgain this w _ hreading => cases hreading.symm.trans hthread
    | taskRun w _ hdoing => cases hdoing.symm.trans hthread
    | taskNone _ _ htask =>
        intro e he
        refine Scheduler.not_due_of_dueTop_none ?_ he
        unfold World.doTask at htask
        split at htask
        next hnone => exact hnone
        next => cases htask
    | dispatchJob t q w _ hdispatching => cases hdispatching.symm.trans hthread
    | accept => exact h hthread
    | produceAccepted => exact h hthread
    | produceRequest => exact h hthread
    | consumeRequest => exact h hthread
    | execute => exact h hthread
    | produceResult => exact h hthread
    | _ => cases hthread

-- ============================================================================
-- What the database has to do
-- ============================================================================

/-- The roster once the database has done what it has to do. -/
def future (st : Server) : Roster := st.players.roster.after (st.unexecuted.map Ticket.job)

/-- The job says where this session is, as the player it is logged on as. -/
def Tells (job : DatabaseJobContext) (w : World) (i : SessionId) : Prop :=
  ∃ s, job = World.updateJob s ∧ s.profile = (w.sessions i).profile ∧
    (w.sessions i).mLogon = true

/-- What has to be done changes by what is pushed, and what is pushed is a load
    or tells where a session is. -/
theorem future_step {a : Event} (hr : system.Reachable st) (h : st.step a = some st')
    (hno : NoIoErrors st a) :
    ∃ js, st'.world.pushed = st.world.pushed ++ js ∧
      st'.future = st.future.after (js.map Ticket.job) ∧
      ∀ t ∈ js, Issued t.job ∧ (t.job.isLoad = true ∨ ∃ i, Tells t.job st'.world i) := by
  have htells : ∀ js : List Ticket, st'.world.outbox = st.world.outbox ++ js →
      (js = [] ∨ st.world.outbox = []) →
      ∀ t ∈ js, t.job.isLoad = true ∨ ∃ i, Tells t.job st'.world i := by
    intro js houtbox hempty t ht
    have hin : t ∈ st'.world.outbox := by
      rw [houtbox]
      exact List.mem_append_right _ ht
    rcases outbox_step h hr t hin with hold | hload | ⟨i, s, pid, hjob, hprofile, hplayer⟩
    · rcases hempty with rfl | hnone
      · cases ht
      · rw [hnone] at hold
        cases hold
    · exact Or.inl hload
    · have hknows := ((known_of_reachable (hr.step trivial h)).knows i).mLogon
      rw [hplayer] at hknows
      exact Or.inr ⟨i, s, hjob, hprofile, hknows⟩
  -- the jobs that are behind what has not been executed
  have hpush : ∀ js : List Ticket, st'.players = st.players →
      st'.unexecuted = st.unexecuted ++ js → st'.future = st.future.after (js.map Ticket.job) := by
    intro js hplayers happend
    rw [future, happend, hplayers, List.map_append, Roster.after_append]
    rfl
  have hsame : st'.players = st.players → st'.unexecuted = st.unexecuted →
      st'.future = st.future := by
    intro hplayers hunexecuted
    rw [future, hplayers, hunexecuted]
    rfl
  have hnone : ∀ t ∈ ([] : List Ticket), Issued t.job ∧
      (t.job.isLoad = true ∨ ∃ i, Tells t.job st'.world i) := by
    intro t ht
    cases ht
  cases step_queueMoves h with
  | push a js st' hplayers hrequest _ hdb houtbox hpushed _ hone hissued =>
      refine ⟨js, hpushed, hpush js hplayers ?_, fun t ht => ⟨hissued t ht, ?_⟩⟩
      · simp only [unexecuted, hdb, hrequest, houtbox, List.append_assoc]
      · exact htells js houtbox (hone.imp_right (fun hone => hone.2.1)) t ht
  | dispatch t q w js hempty hq hw houtbox hpushed _ hupdates =>
      refine ⟨js, hpushed, hpush js rfl ?_, fun t ht => ⟨?_, ?_⟩⟩
      · simp only [unexecuted, houtbox, List.append_assoc]
      · obtain ⟨s, hjob⟩ := hupdates t ht
        rw [hjob]
        exact .update s
      · exact htells js houtbox (Or.inr hempty) t ht
  | produceRequest t rest q houtbox hq =>
      refine ⟨[], (List.append_nil _).symm, hsame rfl ?_, hnone⟩
      show _ ++ (q.contents ++ rest) = _ ++ (_ ++ st.world.outbox)
      rw [ProducerConsumerQueue.contents_produce hq, houtbox, List.append_assoc _ [t] rest]
      rfl
  | consumeRequest t q hdb hq =>
      refine ⟨[], (List.append_nil _).symm, hsame rfl ?_, hnone⟩
      simp only [unexecuted, hdb, ProducerConsumerQueue.contents_consume hq]
      rfl
  | execute ioError t job players hdb hexec =>
      refine ⟨[], (List.append_nil _).symm, ?_, hnone⟩
      have hio : ioError = false := hno
      subst hio
      obtain ⟨⟨ok, done, db⟩, hon, heq⟩ := Option.map_eq_some_iff.mp hexec
      cases heq
      -- the job that was first is done
      rw [future, future, (DatabaseJobContext.executes_of_onExecute hon).roster]
      simp only [unexecuted, hdb]
      rfl
  | produceResult t q hdb hq =>
      refine ⟨[], (List.append_nil _).symm, hsame rfl ?_, hnone⟩
      simp only [unexecuted, hdb]

/-- So it is over a run. -/
theorem future_path {ts : List (System.Transition Server Event)} (hr : system.Reachable st)
    (h : system.Path st ts st') (hno : ∀ tr ∈ ts, NoIoErrors tr.before tr.label) :
    ∃ js : List Ticket, st'.future = st.future.after (js.map Ticket.job) ∧
      ∀ t ∈ js, Issued t.job ∧
        (t.job.isLoad = true ∨ ∃ tr ∈ ts, ∃ i, Tells t.job tr.after.world i) := by
  induction h with
  | nil => exact ⟨[], rfl, nofun⟩
  | @snoc mid st' ts a h hstep ih =>
      obtain ⟨js, hfuture, htells⟩ := ih (fun tr htr => hno tr (List.mem_append_left _ htr))
      have hlast := List.mem_append_right ts (List.mem_singleton.mpr (Eq.refl
        (System.Transition.mk mid a st')))
      obtain ⟨js', -, hfuture', htells'⟩ := future_step (h.reachable hr) hstep (hno _ hlast)
      refine ⟨js ++ js', ?_, fun t ht => ?_⟩
      · rw [hfuture', hfuture, List.map_append, Roster.after_append]
      · rcases List.mem_append.mp ht with ht | ht
        · refine (htells t ht).imp_right (Or.imp_right ?_)
          rintro ⟨tr, htr, i, hi⟩
          exact ⟨tr, List.mem_append_left _ htr, i, hi⟩
        · exact (htells' t ht).imp_right (Or.imp_right (fun ⟨i, hi⟩ => ⟨_, hlast, i, hi⟩))

-- ============================================================================
-- The update that is due
-- ============================================================================

/-- A periodic update of the session is queued for this tick at the latest. -/
def UpdateDue (w : World) (i : SessionId) (deadline : Int) : Prop :=
  ∃ e ∈ w.scheduler.mTaskQueue, e.mOwner = i ∧ e.mTask = .onDbUpdate ∧
    e.mExecutionTick ≤ deadline

/-- The step pushes an update of the session, as it is. -/
def Saves (tr : System.Transition Server Event) (i : SessionId) : Prop :=
  ∃ t, tr.after.world.pushed = tr.before.world.pushed ++ [t] ∧ t.pushedBy = i ∧
    t.job = World.updateJob (tr.before.world.sessions i)

/-- Who is logged on and connected has one queued within its interval. -/
theorem updateDue_of_running (hr : system.ReachableBy KeepsTime st) {i : SessionId}
    (hlogon : (st.world.sessions i).mLogon = true)
    (hconn : (st.world.sessions i).mConnected = true) :
    UpdateDue st.world i (st.world.scheduler.mCurrentTick.toNat
      + PLAYER_DB_UPDATE_INTERVAL.toNat) := by
  have hpos := (isInvariant_armed.holds hr.reachable).running i .onDbUpdate hlogon hconn
  obtain ⟨e, hmem, he⟩ := List.countP_pos_iff.mp hpos
  obtain ⟨howner, htask⟩ := of_decide_eq_true he
  refine ⟨e, hmem, howner, htask, ?_⟩
  have hle := isInvariant_inTime.holds hr e hmem
  rwa [htask] at hle

/-- An update of a connected session stays queued until it is pushed. -/
theorem updateDue_step {a : Event} (h : st.step a = some st') {i : SessionId} {deadline : Int}
    (hdue : UpdateDue st.world i deadline) (hconn : (st.world.sessions i).mConnected = true) :
    UpdateDue st'.world i deadline ∨ Saves ⟨st, a, st'⟩ i := by
  obtain ⟨e, hmem, howner, htask, hle⟩ := hdue
  cases step_schedules h with
  | same _ hqueue => exact Or.inl ⟨e, by rwa [hqueue], howner, htask, hle⟩
  | login t q client login hq hsuccess hdata hreg hdone =>
      refine Or.inl ⟨e, ?_, howner, htask, hle⟩
      rw [hdone]
      exact World.mem_loginDone hmem client login.mPlayerId (doubleToFloat login.mPosX)
        (doubleToFloat login.mPosY) login.mPlayerName
  | ran _ _ _ =>
      cases step_moves h with
      | taskNone => exact Or.inl ⟨e, hmem, howner, htask, hle⟩
      | taskRun w _ _ hrun =>
          obtain ⟨f, hfront, rfl⟩ := World.doTask_eq hrun
          by_cases hne : e = f
          · -- it is run
            subst hne
            refine Or.inr ⟨⟨World.updateJob (st.world.sessions i), i, st.world.next⟩, ?_, rfl, rfl⟩
            show (st.world.runTask e).pushed = _
            simp only [World.runTask, htask, howner, World.onDbUpdate, hconn, if_true]
            rfl
          · refine Or.inl ⟨e, ?_, howner, htask, hle⟩
            exact World.mem_doTask_of_ne (Scheduler.dueTop_eq_some_iff.mp hfront).1 hmem hne

variable {ts ts' : List (System.Transition Server Event)}

theorem mLogon_path (hr : system.Reachable st) (h : system.Path st ts st') {i : SessionId}
    (hi : (st.world.sessions i).mLogon = true) : (st'.world.sessions i).mLogon = true := by
  induction h with
  | nil => exact hi
  | snoc h hstep ih => exact mLogon_step (known_of_reachable (h.reachable hr)) hstep ih

/-- A session that is logged on and connected at the end was so in between. -/
theorem mConnected_path (hr : system.Reachable st) (h : system.Path st ts st') {i : SessionId}
    (hi : (st.world.sessions i).mLogon = true) (hc : (st'.world.sessions i).mConnected = true) :
    (st.world.sessions i).mConnected = true ∧
      ∀ tr ∈ ts, (tr.before.world.sessions i).mConnected = true := by
  induction h with
  | nil => exact ⟨hc, fun tr htr => absurd htr List.not_mem_nil⟩
  | @snoc mid st' ts a h hstep ih =>
      have hreach := h.reachable hr
      have hwas : (mid.world.sessions i).mConnected = true := by
        rcases mConnected_step hstep (sound_of_reachable hreach).keyed hc with hwas | ⟨hnew, -⟩
        · exact hwas
        · -- who is logged on is no new session
          have hknown := known_of_reachable hreach
          have hknows := (hknown.knows i).mLogon
          rw [hknown.unused i (Nat.le_of_eq hnew.symm)] at hknows
          cases (mLogon_path hr h hi).symm.trans hknows
      obtain ⟨hstart, hall⟩ := ih hwas
      refine ⟨hstart, fun tr htr => ?_⟩
      rcases List.mem_append.mp htr with htr | htr
      · exact hall tr htr
      · rw [List.mem_singleton.mp htr]
        exact hwas

/-- Until it is pushed it stays queued over a run. -/
theorem updateDue_path (h : system.Path st ts st') {i : SessionId} {deadline : Int}
    (hconn : ∀ tr ∈ ts, (tr.before.world.sessions i).mConnected = true)
    (hdue : UpdateDue st.world i deadline) :
    UpdateDue st'.world i deadline ∨ ∃ tr ∈ ts, Saves tr i := by
  induction h with
  | nil => exact Or.inl hdue
  | @snoc mid st' ts a h hstep ih =>
      have hlast := List.mem_append_right ts (List.mem_singleton.mpr (Eq.refl
        (System.Transition.mk mid a st')))
      rcases ih (fun tr htr => hconn tr (List.mem_append_left _ htr)) with hdue | ⟨tr, htr, hsaves⟩
      · exact (updateDue_step hstep hdue (hconn _ hlast)).imp_right (fun hs => ⟨_, hlast, hs⟩)
      · exact Or.inr ⟨tr, List.mem_append_left _ htr, hsaves⟩

/-- Between the ends of two timer passes a minute apart, who stays connected is
    saved. -/
theorem saves_between (hr : system.ReachableBy KeepsTime st) (h : system.Path st ts mid)
    (hend : mid.clientThread = .periodWork)
    (hminute : st.world.scheduler.mCurrentTick.toNat + PLAYER_DB_UPDATE_INTERVAL.toNat
      ≤ mid.world.scheduler.mCurrentTick.toNat)
    {i : SessionId} (hlogon : (st.world.sessions i).mLogon = true)
    (hconn : (mid.world.sessions i).mConnected = true) : ∃ tr ∈ ts, Saves tr i := by
  obtain ⟨hstart, hall⟩ := mConnected_path hr.reachable h hlogon hconn
  refine (updateDue_path h hall (updateDue_of_running hr hlogon hstart)).resolve_left ?_
  rintro ⟨e, hmem, -, -, hle⟩
  have hlt := isInvariant_nothingDue.holds (h.reachable hr.reachable) hend e hmem
  omega

-- ============================================================================
-- The table
-- ============================================================================

/-- A row after jobs one of which saves the player: some job put it there. -/
theorem row_of_saved {r : Roster} {players : Players} {jobs : List DatabaseJobContext}
    (hroster : players.roster = r.after jobs) (hissued : ∀ job ∈ jobs, Issued job) {pid : Int32}
    {row : PlayerRow} (hrow : players pid = some row)
    (hsaved : ∃ job ∈ jobs, job.playerId = pid ∧ job.isLoad = false) :
    ∃ s, World.updateJob s ∈ jobs ∧ s.mPlayerId = pid ∧
      row.posX = storedDouble (floatToDouble s.mPosX) ∧
      row.posY = storedDouble (floatToDouble s.mPosY) := by
  obtain ⟨saved, hlast, hafter⟩ := r.after_issued hissued pid
  have hplayer : some row.character = (r pid).map (fun p => saved.elim p p.savedAs) := by
    rw [← hafter, ← hroster, Players.roster, hrow]
    rfl
  cases hlast with
  | none hloads =>
      obtain ⟨job, hjob, hpid, hload⟩ := hsaved
      cases (hloads job hjob hpid).symm.trans hload
  | some before after s hjobs hpid =>
      obtain ⟨p, -, hp⟩ := Option.map_eq_some_iff.mp hplayer.symm
      refine ⟨s, ?_, hpid, ?_, ?_⟩
      · rw [hjobs]
        exact List.mem_append_right _ List.mem_cons_self
      · exact (congrArg Character.x hp).symm
      · exact (congrArg Character.y hp).symm

/-- **Rows are fresh.**  While the timer's clock does not go back: when a
    session has been logged on and connected from some moment to the end of a
    timer pass a minute or more later, as one player, and no update meets an
    I/O error from then on, then whenever the database has nothing left to do
    the player's row says where a session that was logged on as the player was
    after that moment. -/
theorem rows_fresh (hr : system.ReachableBy KeepsTime st) (hts : system.Path st ts mid)
    (hend : mid.clientThread = .periodWork)
    (hminute : st.world.scheduler.mCurrentTick.toNat + PLAYER_DB_UPDATE_INTERVAL.toNat
      ≤ mid.world.scheduler.mCurrentTick.toNat)
    (i : SessionId) (pid : Int32) (hlogon : (st.world.sessions i).mLogon = true)
    (hconn : (mid.world.sessions i).mConnected = true)
    (hplayer : ∀ tr ∈ ts, (tr.before.world.sessions i).mPlayerId = pid)
    (hts' : system.Path mid ts' st')
    (hno : ∀ tr ∈ ts ++ ts', NoIoErrors tr.before tr.label)
    (hdone : st'.unexecuted = []) (row : PlayerRow) (hrow : st'.players pid = some row) :
    ∃ tr ∈ ts ++ ts', ∃ j, (tr.after.world.sessions j).mLogon = true ∧
      (tr.after.world.sessions j).mPlayerId = pid ∧
      row.posX = storedDouble (floatToDouble (tr.after.world.sessions j).mPosX) ∧
      row.posY = storedDouble (floatToDouble (tr.after.world.sessions j).mPosY) := by
  obtain ⟨tr, htr, t, hpushed, -, hjob⟩ := saves_between hr hts hend hminute hlogon hconn
  -- the run from the save on
  obtain ⟨before, after, hsplit, hbefore, hstep, hafter⟩ :=
    (hts.append hts').split (List.mem_append_left ts' htr)
  have hreach := hbefore.reachable hr.reachable
  have hin : ∀ tr' ∈ tr :: after, tr' ∈ ts ++ ts' := by
    intro tr' htr'
    rw [hsplit]
    exact List.mem_append_right _ htr'
  obtain ⟨js₀, hpushed₀, hfuture₀, htells₀⟩ := future_step hreach hstep
    (hno tr (hin tr List.mem_cons_self))
  obtain ⟨js, hfuture, htells⟩ := future_path (hreach.step trivial hstep) hafter
    (fun tr' htr' => hno tr' (hin tr' (List.mem_cons_of_mem _ htr')))
  obtain rfl : js₀ = [t] := List.append_cancel_left (hpushed₀.symm.trans hpushed)
  have hall : ∀ t' ∈ t :: js, Issued t'.job ∧
      (t'.job.isLoad = true ∨ ∃ tr ∈ ts ++ ts', ∃ i, Tells t'.job tr.after.world i) := by
    intro t' ht'
    rcases List.mem_cons.mp ht' with rfl | ht'
    · refine (htells₀ t' (List.mem_singleton.mpr rfl)).imp_right (Or.imp_right ?_)
      exact fun ⟨j, hj⟩ => ⟨tr, hin tr List.mem_cons_self, j, hj⟩
    · refine (htells t' ht').imp_right (Or.imp_right ?_)
      exact fun ⟨tr', htr', j, hj⟩ => ⟨tr', hin tr' (List.mem_cons_of_mem _ htr'), j, hj⟩
  have hroster : st'.players.roster
      = tr.before.future.after ((t :: js).map Ticket.job) := by
    have hlast : st'.future = st'.players.roster := by
      rw [future, hdone]
      rfl
    rw [← hlast, hfuture, hfuture₀, ← Roster.after_append]
    rfl
  have hissued : ∀ job ∈ (t :: js).map Ticket.job, Issued job := by
    intro job hjob'
    obtain ⟨t', ht', rfl⟩ := List.mem_map.mp hjob'
    exact (hall t' ht').1
  obtain ⟨s, hmem, hpid, hx, hy⟩ := row_of_saved hroster hissued hrow
    ⟨t.job, List.mem_cons_self, by rw [hjob]; exact hplayer tr htr, by rw [hjob]; rfl⟩
  obtain ⟨t', ht', hjob'⟩ := List.mem_map.mp hmem
  rcases (hall t' ht').2 with hload | ⟨tr', htr', j, s', hupdate, hprofile, hlogon'⟩
  · rw [hjob'] at hload
    cases hload
  · -- two sessions saved by one job are at one place
    have hsame : World.updateJob s = World.updateJob s' := hjob'.symm.trans hupdate
    injection hsame with _ _ hdata
    injection hdata with hdata
    injection hdata with hpid' hx' hy'
    have hposX : s'.mPosX = (tr'.after.world.sessions j).mPosX := congrArg Profile.mPosX hprofile
    have hposY : s'.mPosY = (tr'.after.world.sessions j).mPosY := congrArg Profile.mPosY hprofile
    refine ⟨tr', htr', j, hlogon', ?_, ?_, ?_⟩
    · exact (congrArg Profile.mPlayerId hprofile).symm.trans (hpid'.symm.trans hpid)
    · rw [hx, hx', hposX]
    · rw [hy, hy', hposY]

def keepsTime (st : Server) : Event → Bool
  | .timer tick => decide (st.world.scheduler.mCurrentTick ≤ tick)
  | _ => true

theorem keepsTime_of_check (st : Server) (a : Event) (h : keepsTime st a = true) :
    KeepsTime st a := by
  cases a with
  | timer tick =>
      show st.world.scheduler.mCurrentTick ≤ tick
      exact of_decide_eq_true h
  | _ => trivial

/-- A player logs in, moves to (1, 2) and is saved there a minute after the
    login. -/
theorem rows_fresh_minute :
    ∃ st mid st' ts ts' row, system.ReachableBy KeepsTime st ∧ system.Path st ts mid ∧
      system.Path mid ts' st' ∧ st'.players 7 = some row ∧ row.posX = 0x3FF0000000000000 ∧
      ∃ tr ∈ ts ++ ts', ∃ j,
        row.posX = storedDouble (floatToDouble (tr.after.world.sessions j).mPosX) := by
  have hrun : ((system.runIf keepsTime (new 0 (fun _ => true) onePlayer) loginEvents).bind
      (fun st => (system.runIf
        (fun st a => decide ((st.world.sessions 0).mPlayerId = 7) && withoutIoError st a) st
        [.recvCompletion ⟨0, 0, BUFSIZE⟩ false moveBytes, .read, .read, .timer 60100, .task, .task,
          .produceRequest, .task]).bind
      (fun mid => (system.runIf withoutIoError mid [.consumeRequest, .execute false]).map
      (fun st' => (decide ((st.world.sessions 0).mLogon = true ∧
          (mid.world.sessions 0).mConnected = true),
        decide (st.world.scheduler.mCurrentTick.toNat + PLAYER_DB_UPDATE_INTERVAL.toNat
          ≤ mid.world.scheduler.mCurrentTick.toNat),
        mid.clientThread, decide (st'.unexecuted.length = 0),
        (st'.players 7).map PlayerRow.posX)))))
        = some (true, true, .periodWork, true, some 0x3FF0000000000000) := by
    decide +kernel
  obtain ⟨st, hst, hrun⟩ := Option.bind_eq_some_iff.mp hrun
  obtain ⟨mid, hmid, hrun⟩ := Option.bind_eq_some_iff.mp hrun
  obtain ⟨st', hst', hall⟩ := Option.map_eq_some_iff.mp hrun
  simp only [Prod.mk.injEq, decide_eq_true_eq] at hall
  obtain ⟨⟨hlogon, hconn⟩, hminute, hend, hdone, hposX⟩ := hall
  obtain ⟨row, hrow, hx⟩ := Option.map_eq_some_iff.mp hposX
  have hinit : system.ReachableBy KeepsTime (new 0 (fun _ => true) onePlayer) :=
    .init ⟨_, _, _, rfl⟩
  have hreach := hinit.runIf keepsTime_of_check hst
  obtain ⟨ts, hts, hchecked⟩ := System.exists_path_of_runIf hmid
  obtain ⟨ts', hts', hchecked'⟩ := System.exists_path_of_runIf hst'
  have hno : ∀ tr ∈ ts ++ ts', NoIoErrors tr.before tr.label := by
    intro tr htr
    refine noIoErrors_of_without _ _ ?_
    rcases List.mem_append.mp htr with htr | htr
    · exact (Bool.and_eq_true_iff.mp (hchecked tr htr)).2
    · exact hchecked' tr htr
  obtain ⟨tr, htr, j, -, -, hwhere, -⟩ := rows_fresh hreach hts hend hminute 0 7 hlogon hconn
    (fun tr htr => of_decide_eq_true (Bool.and_eq_true_iff.mp (hchecked tr htr)).1) hts' hno
    (List.eq_nil_of_length_eq_zero hdone) row hrow
  exact ⟨st, mid, st', ts, ts', row, hreach, hts, hts', hrow, hx, tr, htr, j, hwhere⟩

end Server
end EasyGameServer
