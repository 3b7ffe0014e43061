/-
  EasyGameServer.Server.Answering

  No login is lost, and none is answered twice.  A LOGIN that is read becomes a
  load job, which waits its turn until its result is dispatched; what a session
  has asked for is, in this order, what it was logged in as and what it is
  still waiting for.
-/

import EasyGameServer.Server.Registration
import EasyGameServer.Server.Restoring

namespace EasyGameServer

open Lib

namespace Server

-- ============================================================================
-- What a session has asked for
-- ============================================================================

/-- The player a LOGIN read from this session asks for. -/
def asksFor (this : SessionId) : Note → Option Int32
  | .parsed i .pktCsLogin bytes =>
      if i = this then some (LoginRequest.ofBytes bytes).mPlayerId else none
  | _ => none

/-- The players this session has asked to be logged in as, the oldest first. -/
def requested (trace : List Note) (this : SessionId) : List Int32 := trace.filterMap (asksFor this)

/-- The player a job is to log this session in as. -/
def awaits (this : SessionId) (t : Ticket) : Option Int32 :=
  if t.job.isLoad = true ∧ t.pushedBy = this then some t.job.playerId else none

/-- The players this session is still waiting to be logged in as. -/
def awaited (st : Server) (this : SessionId) : List Int32 := st.jobs.filterMap (awaits this)

variable {st st' : Server} {i this : SessionId}

theorem requested_append (trace ns : List Note) (this : SessionId) :
    requested (trace ++ ns) this = requested trace this ++ requested ns this :=
  List.filterMap_append

/-- An entry that neither asks for a login nor is one. -/
def Unrelated (n : Note) : Prop :=
  (∀ i bytes, n ≠ .parsed i .pktCsLogin bytes) ∧ ∀ i pid, n ≠ .loginDone i pid

theorem requested_of_unrelated {ns : List Note} (h : ∀ n ∈ ns, Unrelated n) (this : SessionId) :
    requested ns this = [] := by
  refine List.filterMap_eq_nil_iff.mpr (fun n hn => ?_)
  unfold asksFor
  split
  next i bytes => exact absurd rfl ((h _ hn).1 i bytes)
  next => rfl

theorem logins_of_unrelated {ns : List Note} (h : ∀ n ∈ ns, Unrelated n) (this : SessionId) :
    logins ns this = [] := by
  refine List.filterMap_eq_nil_iff.mpr (fun n hn => ?_)
  split
  next i pid => exact absurd rfl ((h _ hn).2 i pid)
  next => rfl

end Server

namespace World

open Server (requested logins requested_append logins_append Unrelated)

variable {w w' : World} {this : SessionId}

/-- Nobody asks for anything or is logged in. -/
structure Uninvolved (w w' : World) : Prop where
  requested : ∀ i, requested w'.trace i = requested w.trace i
  logins : ∀ i, logins w'.trace i = logins w.trace i

theorem uninvolved_of_append {ns : List Note} (htrace : w'.trace = w.trace ++ ns)
    (h : ∀ n ∈ ns, Unrelated n) : Uninvolved w w' where
  requested i := by
    rw [htrace, requested_append, Server.requested_of_unrelated h, List.append_nil]
  logins i := by rw [htrace, logins_append, Server.logins_of_unrelated h, List.append_nil]

theorem uninvolved_of_steady (htrace : w'.trace = w.trace) : Uninvolved w w' :=
  uninvolved_of_append (htrace.trans (List.append_nil _).symm) nofun

theorem Calm.unrelated (h : w.Calm w') :
    ∃ ns, w'.trace = w.trace ++ ns ∧ ∀ n ∈ ns, Unrelated n := by
  obtain ⟨ns, hns, hall⟩ := h.trace
  refine ⟨ns, hns, fun n hn => ?_⟩
  obtain ⟨i, pkt, rfl⟩ := hall n hn
  exact ⟨nofun, nofun⟩

/-- An iteration of `OnRead` reads a LOGIN and pushes its load, or neither. -/
theorem login_onReadBody (h : onReadBody this w = .again w') :
    (w'.outbox = w.outbox ∧ Uninvolved w w') ∨
      ∃ bytes, w'.outbox
          = w.outbox ++ [⟨loadJob (w.sessions this).mSocket (.ofBytes bytes), this, w.next⟩] ∧
        w'.trace = w.trace ++ [.parsed this .pktCsLogin bytes] := by
  cases consumes_of_onReadBody h with
  | calm hcalm =>
      obtain ⟨ns, hns, hall⟩ := hcalm.unrelated
      exact Or.inl ⟨hcalm.outbox, uninvolved_of_append hns hall⟩
  | login bytes rest => exact Or.inr ⟨bytes, rfl, rfl⟩
  | other r bytes rest hr hcalm =>
      obtain ⟨ns, hns, hall⟩ := hcalm.unrelated
      have htrace : w'.trace = w.trace ++ (.parsed this r.type bytes :: ns) := by
        rw [hns]
        exact List.append_assoc ..
      refine Or.inl ⟨hcalm.outbox, uninvolved_of_append htrace (fun n hn => ?_)⟩
      rcases List.mem_cons.mp hn with rfl | hn
      · refine ⟨fun i bytes hnote => hr ?_, nofun⟩
        have htype : r.type = .pktCsLogin := (Note.parsed.inj hnote).2.1
        cases r with
        | login => rfl
        | chat => cases htype
        | move => cases htype
      · exact hall n hn

end World

namespace Server

variable {st st' : Server} {i this : SessionId}

-- ============================================================================
-- What a step does about logins
-- ============================================================================

/-- A step, as far as logins go. -/
inductive Attends (st st' : Server) : Event → Prop
  | nothing (a : Event) (huninvolved : World.Uninvolved st.world st'.world)
      (hawaited : ∀ i, st'.awaited i = st.awaited i) : Attends st st' a
  /-- A LOGIN is read. -/
  | ask (this : SessionId) (pid : Int32) (hthread : st.clientThread = .reading this)
      (hlogins : ∀ i, logins st'.world.trace i = logins st.world.trace i)
      (hrequested : ∀ i, requested st'.world.trace i
        = requested st.world.trace i ++ if i = this then [pid] else [])
      (hawaited : ∀ i, st'.awaited i = st.awaited i ++ if i = this then [pid] else []) :
      Attends st st' .read
  /-- A result is dispatched. -/
  | settle (t : Ticket) (q : ProducerConsumerQueue Ticket MAX_DB_JOB)
      (hq : st.mDbJobResultQueue.consume = some (t, q))
      (hdispatch : st.world.dispatchDatabaseJobResult t.job = some st'.world)
      (hmem : t ∈ st.jobs)
      (hrequested : ∀ i, requested st'.world.trace i = requested st.world.trace i)
      (hawaited : ∀ i, st.awaited i = (awaits i t).toList ++ st'.awaited i) :
      Attends st st' .dispatch

theorem awaited_append {js : List Ticket} (h : st'.jobs = st.jobs ++ js) (i : SessionId) :
    st'.awaited i = st.awaited i ++ js.filterMap (awaits i) := by
  rw [awaited, h, List.filterMap_append, awaited]

/-- Loads aside, a job logs nobody in. -/
theorem filterMap_awaits_eq_nil {js : List Ticket} (h : ∀ t ∈ js, t.job.isLoad = false)
    (i : SessionId) : js.filterMap (awaits i) = [] := by
  refine List.filterMap_eq_nil_iff.mpr (fun t ht => if_neg (fun hc => ?_))
  exact Bool.false_ne_true ((h t ht).symm.trans hc.1)

/-- Most steps push nothing and dispatch nothing. -/
theorem attends_of_not {a : Event} (h : st.step a = some st')
    (hnot : a ≠ .read ∧ a ≠ .task ∧ a ≠ .dispatch) : Attends st st' a := by
  have htrace : st'.world.trace = st.world.trace := by
    cases step_plays h with
    | steady _ hsteady => exact hsteady.trace
    | take _ _ _ htrace => exact htrace
    | read => exact absurd rfl hnot.1
    | dispatch => exact absurd rfl hnot.2.2
  refine .nothing a (World.uninvolved_of_steady htrace) (fun i => ?_)
  cases step_jobs h with
  | move _ hjobs => rw [awaited, hjobs, awaited]
  | push _ t hevent => exact absurd hevent (not_or.mpr ⟨hnot.1, hnot.2.1⟩)
  | dispatch => exact absurd rfl hnot.2.2
  | execute ioError t job before after hworld hjobs hjobs' hsock hplayer hload =>
      -- a job is executed in its place
      have hsame : awaits i { t with job := job } = awaits i t := by
        show (if job.isLoad = true ∧ t.pushedBy = i then some job.playerId else none) = _
        rw [hload, hplayer]
        rfl
      rw [awaited, hjobs', awaited, hjobs, List.filterMap_append, List.filterMap_append,
        List.filterMap_cons, List.filterMap_cons, hsame]

/-- A step that leaves a new job for nobody. -/
theorem awaited_of_outbox {js : List Ticket}
    (hresult : st'.mDbJobResultQueue = st.mDbJobResultQueue)
    (hdb : st'.databaseThread = st.databaseThread)
    (hrequest : st'.mDbJobRequestQueue = st.mDbJobRequestQueue)
    (houtbox : st'.world.outbox = st.world.outbox ++ js) (h : ∀ t ∈ js, t.job.isLoad = false)
    (i : SessionId) : st'.awaited i = st.awaited i := by
  rw [awaited_append (jobs_append hresult hdb hrequest houtbox), filterMap_awaits_eq_nil h,
    List.append_nil]

theorem attends_read (h : st.step .read = some st') : Attends st st' .read := by
  cases step_moves h with
  | readAgain this w hempty hthread hbody =>
      rcases World.login_onReadBody hbody with ⟨houtbox, huninvolved⟩ | ⟨bytes, hpush, htrace⟩
      · exact .nothing _ huninvolved (awaited_of_outbox rfl rfl rfl
          (houtbox.trans (List.append_nil _).symm) nofun)
      · have hjobs : jobs { st with world := w } = st.jobs ++ _ := jobs_append rfl rfl rfl hpush
        refine .ask this (LoginRequest.ofBytes bytes).mPlayerId hthread (fun i => ?_)
          (fun i => ?_) (fun i => ?_)
        · show logins w.trace i = _
          rw [htrace, logins_append]
          exact List.append_nil _
        · show requested w.trace i = _
          rw [htrace, requested_append]
          congr 1
          by_cases hi : i = this
          · simp [requested, asksFor, hi]
          · simp [requested, asksFor, hi, Ne.symm hi]
        · rw [awaited_append hjobs]
          congr 1
          by_cases hi : i = this
          · simp [awaits, hi, World.loadJob, DatabaseJobContext.isLoad,
              DatabaseJobContext.playerId]
          · simp [awaits, hi, Ne.symm hi]
  | readLeave this w hempty hthread hbody =>
      have hsteady := (World.steady_onReadBody_leave hbody).trans (World.steady_recvExit w this)
      have hsilent := (World.onReadBody_leave hbody).silent.trans (World.silent_recvExit w this)
      exact .nothing _ (World.uninvolved_of_steady hsteady.trace) (awaited_of_outbox rfl rfl rfl
        (hsilent.outbox.trans (List.append_nil _).symm) nofun)

theorem attends_task (h : st.step .task = some st') : Attends st st' .task := by
  cases step_moves h with
  | taskRun w hempty hthread htask =>
      refine .nothing _ (World.uninvolved_of_steady (World.steady_doTask htask).trace) ?_
      rcases World.silent_doTask htask with hsilent | ⟨t, s, hjob, hpush⟩
      · exact awaited_of_outbox rfl rfl rfl (hsilent.outbox.trans (List.append_nil _).symm) nofun
      · refine awaited_of_outbox rfl rfl rfl hpush.outbox (fun t' ht' => ?_)
        rw [List.mem_singleton.mp ht', hjob]
        rfl
  | taskNone => exact .nothing _ (World.uninvolved_of_steady rfl) (fun _ => rfl)

theorem attends_dispatch (h : st.step .dispatch = some st') : Attends st st' .dispatch := by
  cases step_moves h with
  | dispatchNone => exact .nothing _ (World.uninvolved_of_steady rfl) (fun _ => rfl)
  | dispatchJob t q w hempty hthread hq hw =>
      obtain ⟨js, houtbox, -, -, hupdates⟩ := pushed_of_dispatch hw
      have hcontents := ProducerConsumerQueue.contents_consume hq
      have hjobs : st.jobs = t :: (q.contents ++ st.databaseThread.job ++
          (st.mDbJobRequestQueue.contents ++ st.world.outbox)) := by
        rw [jobs, hcontents]
        rfl
      have hloads : ∀ t ∈ js, t.job.isLoad = false := by
        intro t' ht'
        obtain ⟨s, hs⟩ := hupdates t' ht'
        rw [hs]
        rfl
      have hrequested : ∀ i, requested w.trace i = requested st.world.trace i := by
        intro i
        rcases World.dispatchDatabaseJobResult_cases hw with
          heq | ⟨client, login, -, -, -, -, -, heq⟩
        · rw [heq]
        · rw [heq, (World.loggedIn_loginDone st.world client _ _ _ _).trace, requested_append]
          exact List.append_nil _
      refine .settle t q hq hw (hjobs ▸ List.mem_cons_self) hrequested (fun i => ?_)
      have hafter : awaited { st with world := w, mDbJobResultQueue := q } i
          = (q.contents ++ st.databaseThread.job ++
            (st.mDbJobRequestQueue.contents ++ st.world.outbox)).filterMap (awaits i) := by
        show (_ ++ (_ ++ w.outbox)).filterMap _ = _
        rw [houtbox, ← List.append_assoc, ← List.append_assoc, List.filterMap_append,
          filterMap_awaits_eq_nil hloads, List.append_nil, List.append_assoc]
      rw [hafter, awaited, hjobs, List.filterMap_cons]
      cases awaits i t with
      | none => rfl
      | some pid => rfl

theorem step_attends {a : Event} (h : st.step a = some st') : Attends st st' a := by
  cases a with
  | read => exact attends_read h
  | task => exact attends_task h
  | dispatch => exact attends_dispatch h
  | _ => exact attends_of_not h ⟨nofun, nofun, nofun⟩

-- ============================================================================
-- The account
-- ============================================================================

/-- Those the table has. -/
def found (db : Players) (pids : List Int32) : List Int32 :=
  pids.filter (fun pid => (db pid).isSome)

/-- No execution meets an I/O error, no result goes to a session younger than
    the job, and no socket is taken that still has an entry. -/
structure Attentive (st : Server) (a : Event) : Prop where
  noIoErrors : NoIoErrors st a
  toOlder : DispatchesToOlder st a
  takesUnlisted : TakesUnlisted st a

/-- What a session has asked for is what it was logged in as and, as long as it
    is connected, what it is waiting for. -/
structure Accounted (db : Players) (st : Server) : Prop where
  key : ∀ t ∈ st.jobs, t.job.isLoad = true → t.pushedBy < st.world.next ∧
    t.job.mSockKey = (st.world.sessions t.pushedBy).mSocket
  account : ∀ i, (st.world.sessions i).mConnected = true ∨ st.world.next ≤ i →
    found db (requested st.world.trace i)
      = logins st.world.trace i ++ found db (st.awaited i)
  answered : ∀ i, logins st.world.trace i <+: found db (requested st.world.trace i)

variable {db : Players}

theorem accounted_new (tick : UInt32) (answers : Nat → Bool) (players : Players) :
    Accounted db (new tick answers players) where
  key _ ht := absurd ht List.not_mem_nil
  account _ _ := rfl
  answered _ := List.nil_prefix

theorem Accounted.key_step {a : Event} (h : Accounted db st) (hsound : Sound st)
    (hstep : st.step a = some st') (t : Ticket) (ht : t ∈ st'.jobs) (hload : t.job.isLoad = true) :
    t.pushedBy < st'.world.next ∧
      t.job.mSockKey = (st'.world.sessions t.pushedBy).mSocket := by
  have hages := ages_of_step hstep hsound.keyed
  have hold : ∀ t : Ticket, t.pushedBy < st.world.next →
      t.job.mSockKey = (st.world.sessions t.pushedBy).mSocket →
      t.pushedBy < st'.world.next ∧
        t.job.mSockKey = (st'.world.sessions t.pushedBy).mSocket := by
    intro t hlt hkey
    exact ⟨Nat.lt_of_lt_of_le hlt hages.next, hkey.trans (hages.mSocket _ hlt).symm⟩
  cases step_jobs hstep with
  | move _ hjobs =>
      rw [hjobs] at ht
      exact hold t (h.key t ht hload).1 (h.key t ht hload).2
  | push _ t' _ hjobs _ _ _ hpushed =>
      rw [hjobs] at ht
      rcases List.mem_append.mp ht with ht | ht
      · exact hold t (h.key t ht hload).1 (h.key t ht hload).2
      · rw [List.mem_singleton.mp ht] at hload ⊢
        obtain ⟨hthread, -, hsock, -⟩ := hpushed hload
        exact hold t' (hsound.reading _ hthread).1 hsock
  | dispatch t' rest js _ _ hjobs hjobs' _ _ _ hupdates =>
      rw [hjobs'] at ht
      rcases List.mem_append.mp ht with ht | ht
      · have hmem : t ∈ st.jobs := hjobs ▸ List.mem_cons_of_mem _ ht
        exact hold t (h.key t hmem hload).1 (h.key t hmem hload).2
      · exact absurd (hload.symm.trans (hupdates t ht)) (by decide)
  | execute _ t' job before after _ hjobs hjobs' hsock hplayer hsame =>
      have hall := h.key
      rw [hjobs] at hall
      rw [hjobs'] at ht
      rcases List.mem_append.mp ht with ht | ht
      · have hmem := List.mem_append_left (t' :: after) ht
        exact hold t (hall t hmem hload).1 (hall t hmem hload).2
      · rcases List.mem_cons.mp ht with rfl | ht
        · obtain ⟨hlt, hkey⟩ := hall t' (List.mem_append_right _ List.mem_cons_self)
            (hsame.symm.trans hload)
          exact hold { t' with job := job } hlt (hsock.trans hkey)
        · have hmem := List.mem_append_right before (List.mem_cons_of_mem t' ht)
          exact hold t (hall t hmem hload).1 (hall t hmem hload).2

/-- A dispatch logs in a connected session that was waiting for this result,
    and nobody else. -/
theorem logins_settle {t : Ticket} {q : ProducerConsumerQueue Ticket MAX_DB_JOB}
    (hr : (systemOn db).ReachableBy Attentive st) (hok : DispatchesToOlder st .dispatch)
    (hkey : t.job.isLoad = true → t.job.mSockKey = (st.world.sessions t.pushedBy).mSocket)
    (hq : st.mDbJobResultQueue.consume = some (t, q)) (hmem : t ∈ st.jobs)
    (hdispatch : st.world.dispatchDatabaseJobResult t.job = some st'.world) (i : SessionId) :
    logins st'.world.trace i = logins st.world.trace i ++
      if (st.world.sessions i).mConnected = true then found db (awaits i t).toList else [] := by
  have hinv := isInvariant_login.holds (hr.of_startingWith.mono fun _ _ hok => hok.toOlder)
  have hkeyed := (sound_of_reachable hr.of_startingWith.reachable).keyed
  -- whoever is logged in was waiting for it
  have hpusher : ∀ client, t.job.isLoad = true → t.job.mSuccess = true →
      st.world.mClientList[t.job.mSockKey]? = some client →
      (st.world.sessions client).mConnected = true → client = t.pushedBy := by
    intro client hload hsuccess hreg hconn
    exact (hinv.routed t hmem hload).pusher client (hok t q hq hload hsuccess client hreg hconn)
      hconn (hkeyed _ client hreg)
  have hdone : ∀ client login, t.job.data = .load login →
      st'.world = st.world.loginDone client login.mPlayerId (doubleToFloat login.mPosX)
        (doubleToFloat login.mPosY) login.mPlayerName →
      logins st'.world.trace i = logins st.world.trace i ++
        if client = i then [t.job.playerId] else [] := by
    intro client login hdata heq
    have hpid : t.job.playerId = login.mPlayerId := by rw [DatabaseJobContext.playerId, hdata]
    rw [heq, (World.loggedIn_loginDone st.world client _ _ _ _).trace, logins_append, hpid]
    congr 1
    by_cases hi : client = i
    · simp [logins, hi]
    · simp [logins, hi]
  by_cases hwaits : t.job.isLoad = true ∧ t.pushedBy = i ∧
      (st.world.sessions i).mConnected = true
  · obtain ⟨hload, hpushed, hconn⟩ := hwaits
    have hawaits : awaits i t = some t.job.playerId := if_pos ⟨hload, hpushed⟩
    have hr' : (systemOn db).ReachableBy NoIoErrors st := hr.mono fun _ _ hok => hok.noIoErrors
    obtain ⟨_, _, _, saved, -, -, -, hanswers⟩ := answers_last_save db hr' hq hload
    rw [if_pos hconn, hawaits]
    cases hrow : db t.job.playerId with
    | none =>
        rw [hrow] at hanswers
        have hfound : found db (some t.job.playerId).toList = [] := by simp [found, hrow]
        rw [hfound, List.append_nil]
        rcases World.dispatchDatabaseJobResult_cases hdispatch with heq | ⟨_, _, hsuccess, -⟩
        · rw [heq]
        · exact absurd (hsuccess.symm.trans hanswers) (by decide)
    | some row =>
        rw [hrow] at hanswers
        obtain ⟨hsuccess, login, hdata, -⟩ := hanswers
        have hfound : found db (some t.job.playerId).toList = [t.job.playerId] := by
          simp [found, hrow]
        have hregistered := isInvariant_registered.holds
          (hr.of_startingWith.mono fun _ _ hok => hok.takesUnlisted)
        have hreg := hregistered i hconn
        rw [← hpushed, ← hkey hload, hpushed] at hreg
        rw [hfound, hdone i login hdata
          (loginDone_of_dispatch hkeyed hsuccess hdata hreg hconn hdispatch), if_pos rfl]
  · have hnothing : (if (st.world.sessions i).mConnected = true then
        found db (awaits i t).toList else []) = [] := by
      split
      next hconn =>
        have hnone : awaits i t = none := if_neg (fun hc => hwaits ⟨hc.1, hc.2, hconn⟩)
        rw [hnone]
        rfl
      next => rfl
    rw [hnothing]
    rcases World.dispatchDatabaseJobResult_cases hdispatch with
      heq | ⟨client, login, hsuccess, hdata, hreg, hconn, -, heq⟩
    · rw [heq, List.append_nil]
    · have hload : t.job.isLoad = true := by rw [DatabaseJobContext.isLoad, hdata]
      rw [hdone client login hdata heq, if_neg]
      rintro rfl
      exact hwaits ⟨hload, (hpusher client hload hsuccess hreg hconn).symm, hconn⟩

theorem found_append (pids pids' : List Int32) :
    found db (pids ++ pids') = found db pids ++ found db pids' := List.filter_append ..

theorem Accounted.step {a : Event} (h : Accounted db st)
    (hr : (systemOn db).ReachableBy Attentive st) (hok : Attentive st a)
    (hstep : st.step a = some st') : Accounted db st' := by
  have hsound := sound_of_reachable hr.of_startingWith.reachable
  have hages := ages_of_step hstep hsound.keyed
  -- nobody comes back
  have hearlier : ∀ i, (st'.world.sessions i).mConnected = true ∨ st'.world.next ≤ i →
      (st.world.sessions i).mConnected = true ∨ st.world.next ≤ i := by
    rintro i (hconn | hi)
    · rcases mConnected_step hstep hsound.keyed hconn with hconn | ⟨hi, -⟩
      · exact Or.inl hconn
      · exact Or.inr (Nat.le_of_eq hi.symm)
    · exact Or.inr (Nat.le_trans hages.next hi)
  refine ⟨h.key_step hsound hstep, ?_, ?_⟩
  · intro i hi
    have hbefore := h.account i (hearlier i hi)
    cases step_attends hstep with
    | nothing _ huninvolved hawaited =>
        rw [huninvolved.requested, huninvolved.logins, hawaited]
        exact hbefore
    | ask this pid _ hlogins hrequested hawaited =>
        rw [hrequested, hlogins, hawaited, found_append, found_append, hbefore, List.append_assoc]
    | settle t q hq hdispatch hmem hrequested hawaited =>
        have hsettled := logins_settle hr hok.toOlder (fun hload => (h.key t hmem hload).2) hq hmem
          hdispatch i
        have hnow : (if (st.world.sessions i).mConnected = true then
            found db (awaits i t).toList else []) = found db (awaits i t).toList := by
          split
          next => rfl
          next hdisc =>
            -- it does not exist yet, and has pushed nothing
            have hnone : awaits i t = none := by
              refine if_neg (fun hc => ?_)
              have hlt := (h.key t hmem hc.1).1
              rw [hc.2] at hlt
              exact Nat.not_lt.mpr ((hearlier i hi).resolve_left hdisc) hlt
            rw [hnone]
            rfl
        rw [hrequested, hsettled, hnow, hbefore, hawaited, found_append, List.append_assoc]
  · intro i
    have hbefore := h.answered i
    cases step_attends hstep with
    | nothing _ huninvolved hawaited =>
        rw [huninvolved.requested, huninvolved.logins]
        exact hbefore
    | ask this pid _ hlogins hrequested hawaited =>
        rw [hrequested, hlogins, found_append]
        exact hbefore.trans (List.prefix_append _ _)
    | settle t q hq hdispatch hmem hrequested hawaited =>
        rw [hrequested, logins_settle hr hok.toOlder (fun hload => (h.key t hmem hload).2) hq hmem
          hdispatch i]
        split
        next hconn =>
          rw [h.account i (Or.inl hconn), hawaited, found_append, ← List.append_assoc]
          exact List.prefix_append _ _
        next =>
          rw [List.append_nil]
          exact hbefore

theorem isInvariant_accounted (db : Players) :
    (systemOn db).IsInvariant Attentive (Accounted db) where
  init := by
    rintro st ⟨⟨tick, answers, players, rfl⟩, -⟩
    exact accounted_new tick answers players
  step _ _ _ hr h hok hstep := h.step hr hok hstep

/-- **No login is lost, and none is answered twice.**  In every run without I/O
    errors in which no result goes to a session younger than its job and no
    socket is taken that still has an entry: of the players a session has asked
    for, those the table has are, in this order, the players it was logged in
    as and then, as long as it is connected, those whose loads are still on
    their way. -/
theorem logins_answered (db : Players) (st : Server)
    (h : (systemOn db).ReachableBy Attentive st) (i : SessionId) :
    logins st.world.trace i <+: found db (requested st.world.trace i) ∧
      ((st.world.sessions i).mConnected = true →
        found db (requested st.world.trace i)
          = logins st.world.trace i ++ found db (st.awaited i)) :=
  have haccounted := (isInvariant_accounted db).holds h
  ⟨haccounted.answered i, fun hconn => haccounted.account i (Or.inl hconn)⟩

/-- Is it attentive? -/
def isAttentive (st : Server) : Event → Bool
  | .execute ioError => !ioError
  | .takeAccepted _ _ => st.pendingAcceptList.consume.all
      (fun r => (st.world.mClientList[r.1]?).isNone)
  | .dispatch => st.mDbJobResultQueue.consume.all
      (fun r => (st.world.mClientList[r.1.job.mSockKey]?).all
        (fun client => decide (client < r.1.born)))
  | _ => true

theorem attentive_of_isAttentive (st : Server) (a : Event) (h : isAttentive st a = true) :
    Attentive st a := by
  refine ⟨?_, ?_, ?_⟩
  · cases a with
    | execute ioError => exact eq_false_of_ne_true (fun hc => by simp [isAttentive, hc] at h)
    | _ => trivial
  · cases a with
    | dispatch =>
        intro t q hq _ _ client hreg _
        simpa [isAttentive, hq, hreg] using h
    | _ => trivial
  · cases a with
    | takeAccepted sendMem recvMem => exact takesUnlisted_of_findsUnlisted _ _ h
    | _ => trivial

/-- Three LOGINs at once, one for a player the table does not have, and the
    result of the first. -/
theorem logins_answered_first :
    ∃ st, (systemOn onePlayer).ReachableBy Attentive st ∧
      (st.world.sessions 0).mConnected = true ∧ logins st.world.trace 0 = [7] ∧
      found onePlayer (requested st.world.trace 0) = [7] ++ found onePlayer [8, 7] := by
  have hrun : ((systemOn onePlayer).runIf isAttentive (new 0 (fun _ => true) onePlayer)
      [.accept 5, .produceAccepted, .takeAccepted (fun _ => 0) (fun _ => 0), .flush,
        .recvCompletion ⟨0, 0, BUFSIZE⟩ false
          [8, 0, 1, 0, 7, 0, 0, 0, 8, 0, 1, 0, 8, 0, 0, 0, 8, 0, 1, 0, 7, 0, 0, 0],
        .read, .produceRequest, .read, .produceRequest, .read, .produceRequest, .consumeRequest,
        .execute false, .produceResult, .read, .timer 100, .task, .period 100, .dispatch]).map
      (fun st => ((st.world.sessions 0).mConnected, logins st.world.trace 0, st.awaited 0))
        = some (true, [7], [8, 7]) := by
    decide +kernel
  obtain ⟨st, hst, hall⟩ := Option.map_eq_some_iff.mp hrun
  simp only [Prod.mk.injEq] at hall
  obtain ⟨hconn, hlogins, hawaited⟩ := hall
  have hinit : (systemOn onePlayer).ReachableBy Attentive (new 0 (fun _ => true) onePlayer) :=
    .init ⟨⟨_, _, _, rfl⟩, rfl⟩
  have hreach := hinit.runIf attentive_of_isAttentive hst
  have haccount := (logins_answered onePlayer st hreach 0).2 hconn
  rw [hlogins, hawaited] at haccount
  exact ⟨st, hreach, hconn, hlogins, haccount⟩

end Server
end EasyGameServer
