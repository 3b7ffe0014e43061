/-
  EasyGameServer.Server.Deadlock

  The cycle of the two job queues.  The client thread blocks on a full request
  queue and drains the result queue only in its timer pass; the database
  thread blocks on a full result queue.  Both are blocked exactly when every
  place a job can be in is taken, and that takes one push too many.

  A single receive is enough: `Flooded` follows a client that sends login
  packets in one piece.
-/

import EasyGameServer.Server.Jobs
import EasyGameServer.PacketHandling.Framing

namespace EasyGameServer

open Lib

namespace Server

/-- The client thread waits for room in the request queue and the database
    thread for room in the result queue, and both are full. -/
structure Deadlocked (st : Server) : Prop where
  pushing : st.world.outbox ≠ []
  requestFull : st.mDbJobRequestQueue.mOccupiedSize = MAX_DB_JOB
  producing : ∃ t, st.databaseThread = .producing t
  resultFull : st.mDbJobResultQueue.mOccupiedSize = MAX_DB_JOB

/-- The jobs that do not block anybody: two full queues and the one the
    database thread holds. -/
def maxInFlight : Nat := 2 * MAX_DB_JOB + 1

/-- How many jobs are on their way when a step pushes: a dispatch has popped
    its result before. -/
def inFlight (st : Server) : Event → Nat
  | .dispatch => st.jobs.length - 1
  | _ => st.jobs.length

/-- `PushDatabaseJobRequest` is called only when fewer than `maxInFlight` jobs
    are on their way. -/
def PushesWithRoom (st : Server) (a : Event) : Prop :=
  ∀ st', st.step a = some st' → st'.world.pushed ≠ st.world.pushed →
    st.inFlight a < maxInFlight

variable {st st' : Server}

theorem length_jobs (st : Server) :
    st.jobs.length = st.mDbJobResultQueue.mOccupiedSize + st.databaseThread.job.length
      + (st.mDbJobRequestQueue.mOccupiedSize + st.world.outbox.length) := by
  simp only [jobs, List.length_append, ProducerConsumerQueue.length_contents]

/-- A deadlock holds one job more than fit. -/
theorem length_jobs_of_deadlocked (h : Deadlocked st) : maxInFlight < st.jobs.length := by
  obtain ⟨hpush, hrequest, ⟨t, hdb⟩, hresult⟩ := h
  have hpos := List.length_pos_iff.mpr hpush
  rw [length_jobs, hrequest, hresult, hdb, maxInFlight]
  simp only [DatabaseThread.job, List.length_singleton]
  omega

/-- What a step does to the number of jobs on their way. -/
theorem length_jobs_step {a : Event} (h : st.step a = some st') :
    (st'.world.pushed = st.world.pushed ∧ st'.jobs.length ≤ st.jobs.length) ∨
      (st'.world.pushed ≠ st.world.pushed ∧ st'.jobs.length = st.inFlight a + 1 ∧
        st'.world.outbox.length = 1) := by
  have hgrows : ∀ (l : List Ticket) (t : Ticket), l ++ [t] ≠ l := by
    intro l t heq
    have := congrArg List.length heq
    rw [List.length_append, List.length_singleton] at this
    omega
  cases step_jobs h with
  | move _ hjobs hpushed _ _ => exact Or.inl ⟨hpushed, by rw [hjobs]⟩
  | push _ t hevent hjobs houtbox hpushed _ _ =>
      refine Or.inr ⟨?_, ?_, by rw [houtbox]; rfl⟩
      · rw [hpushed]
        exact hgrows _ t
      · rcases hevent with rfl | rfl
        · rw [hjobs, List.length_append]
          rfl
        · rw [hjobs, List.length_append]
          rfl
  | dispatch t rest js _ _ hjobs hjobs' houtbox hpushed hlen _ =>
      cases js with
      | nil =>
          rw [List.append_nil] at hpushed hjobs'
          refine Or.inl ⟨hpushed, ?_⟩
          rw [hjobs', hjobs]
          exact Nat.le_succ _
      | cons t' js =>
          have hnil : js = [] := List.length_eq_zero_iff.mp (by simpa using hlen)
          subst hnil
          refine Or.inr ⟨?_, ?_, by rw [houtbox]; rfl⟩
          · rw [hpushed]
            exact hgrows _ t'
          · rw [hjobs', List.length_append, inFlight, hjobs]
            rfl
  | execute _ t job before after hworld hjobs hjobs' _ _ _ =>
      refine Or.inl ⟨by rw [hworld], ?_⟩
      rw [hjobs, hjobs']
      simp

/-- Pushing with room, no run ever has more jobs on their way than fit. -/
theorem isInvariant_length_jobs :
    system.IsInvariant PushesWithRoom (fun st => st.jobs.length ≤ maxInFlight) where
  init := by
    rintro _ ⟨tick, answers, players, rfl⟩
    exact Nat.zero_le _
  step st a st' _ h hok hstep := by
    rcases length_jobs_step hstep with ⟨-, hle⟩ | ⟨hpushed, heq, -⟩
    · exact Nat.le_trans hle h
    · have hroom := hok st' hstep hpushed
      rw [heq]
      exact hroom

/-- **No deadlock.**  In every run that pushes a job only when fewer than 255
    are on their way, the client thread and the database thread never block
    each other. -/
theorem not_deadlocked (st : Server) (h : system.ReachableBy PushesWithRoom st) :
    ¬ Deadlocked st := by
  intro hdead
  have hlen := isInvariant_length_jobs.holds h
  have hmore := length_jobs_of_deadlocked hdead
  omega

/-- With fewer jobs on their way than fit, every step is fine. -/
theorem pushesWithRoom_of_length (a : Event) (h : st.jobs.length < maxInFlight) :
    PushesWithRoom st a := by
  intro st' _ _
  unfold inFlight
  split <;> omega

/-- A login pushes the first job. -/
theorem not_deadlocked_login :
    ∃ st, system.ReachableBy PushesWithRoom st ∧ st.world.pushed.length = 1 ∧ ¬ Deadlocked st := by
  have h₀ : system.ReachableBy PushesWithRoom (new 0 (fun _ => true) (fun _ => none)) :=
    .init ⟨_, _, _, rfl⟩
  have h₁ := h₀.step (a := Event.accept 5) (pushesWithRoom_of_length _ (by decide)) rfl
  have h₂ := h₁.step (a := Event.produceAccepted) (pushesWithRoom_of_length _ (by decide)) rfl
  have h₃ := h₂.step (a := Event.takeAccepted (fun _ => 0) (fun _ => 0))
    (pushesWithRoom_of_length _ (by decide)) rfl
  have h₄ := h₃.step (a := Event.flush) (pushesWithRoom_of_length _ (by decide)) rfl
  have h₅ := h₄.step (a := Event.recvCompletion ⟨0, 0, BUFSIZE⟩ false [8, 0, 1, 0, 7, 0, 0, 0])
    (pushesWithRoom_of_length _ (by decide)) rfl
  have h₆ := h₅.step (a := Event.read) (pushesWithRoom_of_length _ (by decide)) rfl
  exact ⟨_, h₆, rfl, not_deadlocked _ h₆⟩

/-! ## One push too many -/

/-- The outbox never holds more than the job the thread is blocked on. -/
theorem isInvariant_length_outbox :
    system.IsInvariant System.always (fun st => st.world.outbox.length ≤ 1) where
  init := by
    rintro _ ⟨tick, answers, players, rfl⟩
    exact Nat.zero_le _
  step st a st' _ h _ hstep := by
    cases step_jobs hstep with
    | move _ _ _ houtbox _ => exact Nat.le_trans houtbox h
    | push _ t _ _ houtbox _ _ _ =>
        rw [houtbox]
        exact Nat.le_refl _
    | dispatch _ _ js _ _ _ _ houtbox _ hlen _ =>
        rw [houtbox]
        exact hlen
    | execute _ _ _ _ _ hworld _ _ _ _ _ =>
        rw [hworld]
        exact h

/-- One job more than fit takes every place, and once the database thread has
    executed its job it is a deadlock. -/
theorem deadlocked_of_length_jobs (hr : system.Reachable st) (h : maxInFlight < st.jobs.length) :
    Deadlocked st ∨ ∃ st', st.step (.execute true) = some st' ∧ Deadlocked st' := by
  have houtbox := isInvariant_length_outbox.holds hr
  have hrequest := st.mDbJobRequestQueue.occupied_le
  have hresult := st.mDbJobResultQueue.occupied_le
  have hmax : MAX_DB_JOB = 127 := rfl
  rw [length_jobs, maxInFlight] at h
  cases hdb : st.databaseThread with
  | consuming =>
      rw [hdb, DatabaseThread.job, List.length_nil] at h
      omega
  | producing t =>
      rw [hdb, DatabaseThread.job, List.length_singleton] at h
      refine Or.inl ⟨?_, by omega, ⟨t, hdb⟩, by omega⟩
      rw [ne_eq, ← List.length_eq_zero_iff]
      omega
  | executing t =>
      rw [hdb, DatabaseThread.job, List.length_singleton] at h
      have hstep : st.step (.execute true) = some { st with
          databaseThread := .producing { t with job := { t.job with mSuccess := false } } } := by
        simp only [step, Event.ofClient, queueStep, hdb]
        rfl
      have hpushing : st.world.outbox ≠ [] := by
        rw [ne_eq, ← List.length_eq_zero_iff]
        omega
      have hrequestFull : st.mDbJobRequestQueue.mOccupiedSize = MAX_DB_JOB := by omega
      have hresultFull : st.mDbJobResultQueue.mOccupiedSize = MAX_DB_JOB := by omega
      exact Or.inr ⟨_, hstep, hpushing, hrequestFull, ⟨_, rfl⟩, hresultFull⟩

/-- A push with no room leads there. -/
theorem deadlocked_of_push {a : Event} (hr : system.Reachable st) (hstep : st.step a = some st')
    (hpushed : st'.world.pushed ≠ st.world.pushed) (hfull : maxInFlight ≤ st.inFlight a) :
    Deadlocked st' ∨ ∃ st'', st'.step (.execute true) = some st'' ∧ Deadlocked st'' := by
  refine deadlocked_of_length_jobs (.step hr trivial hstep) ?_
  rcases length_jobs_step hstep with ⟨hsame, -⟩ | ⟨-, heq, -⟩
  · exact absurd hsame hpushed
  · omega

/-! ## A flood of logins -/

/-- A login request for player 7. -/
def loginPacket : List UInt8 := [8, 0, 1, 0, 7, 0, 0, 0]

theorem conforming_loginPacket : World.Conforming loginPacket :=
  ⟨.login, by decide, by decide, by decide⟩

/-- Reading a login packet pushes a job. -/
theorem onReadBody_login {w : World} {this : SessionId} {rest : List UInt8}
    (hv : (w.recv this).Valid) (hc : (w.recv this).contents = loginPacket ++ rest) :
    ∃ w' t, World.onReadBody this w = .again w' ∧ (w'.recv this).Valid ∧
      (w'.recv this).contents = rest ∧ w'.outbox = w.outbox ++ [t] := by
  obtain ⟨w', after, hbody, hhandled, hv', hc'⟩ := World.onReadBody_front (r := .login) hv
    conforming_loginPacket (by decide) hc (fun hcrash => absurd hcrash.1 (by decide))
  cases hhandled with
  | login hr =>
      have hrecv : (w.consumed this World.Registered.login.type loginPacket after).recv this
          = after := by
        rw [World.recv, World.sessions_consumed_self]
      have hvalid := congrArg CircularBuffer.Valid hrecv
      have hcontents := congrArg CircularBuffer.contents hrecv
      exact ⟨_, _, hbody, hvalid.mpr hv', hcontents.trans hc', rfl⟩
  | refused hr => exact absurd rfl hr
  | chat hr => cases hr
  | move hr => cases hr

theorem reachable_step {a : Event} (h : system.Reachable st) (hstep : st.step a = some st') :
    system.Reachable st' := .step h trivial hstep

/-- The client thread is in `OnRead` of the first session, which has sent `n`
    more login packets. -/
structure Flooded (st : Server) (n : Nat) : Prop where
  reachable : system.Reachable st
  thread : st.clientThread = .reading 0
  valid : (st.world.recv 0).Valid
  contents : (st.world.recv 0).contents = (List.replicate n loginPacket).flatten
  outbox : st.world.outbox = []

/-- The next packet is read. -/
theorem Flooded.read {n : Nat} (h : Flooded st (n + 1)) :
    ∃ w' t, st.step .read = some { st with world := w' } ∧ (w'.recv 0).Valid ∧
      (w'.recv 0).contents = (List.replicate n loginPacket).flatten ∧ w'.outbox = [t] := by
  have hc := h.contents
  rw [List.replicate_succ, List.flatten_cons] at hc
  obtain ⟨w', t, hbody, hv, hc', houtbox⟩ := onReadBody_login h.valid hc
  rw [h.outbox] at houtbox
  refine ⟨w', t, ?_, hv, hc', houtbox⟩
  simp only [step, Event.ofClient, if_true, h.outbox, List.isEmpty_nil, clientStep, h.thread, hbody]

/-- Its job goes into the request queue when there is room. -/
theorem Flooded.request {n : Nat} (h : Flooded st (n + 1))
    (hroom : st.mDbJobRequestQueue.contents.length < MAX_DB_JOB) :
    ∃ st', Flooded st' n ∧
      st'.mDbJobRequestQueue.contents.length = st.mDbJobRequestQueue.contents.length + 1 ∧
      st'.databaseThread = st.databaseThread ∧ st'.mDbJobResultQueue = st.mDbJobResultQueue := by
  obtain ⟨w', t, hread, hv, hc, houtbox⟩ := h.read
  obtain ⟨q, hq⟩ := ProducerConsumerQueue.exists_produce t hroom
  have hproduce : ({ st with world := w' } : Server).step .produceRequest = some { st with
      world := { w' with outbox := [] }
      mDbJobRequestQueue := q } := by
    simp only [step, Event.ofClient, queueStep, houtbox, hq]
    rfl
  have hreach := reachable_step (reachable_step h.reachable hread) hproduce
  refine ⟨_, ⟨hreach, h.thread, hv, hc, rfl⟩, ?_, rfl, rfl⟩
  rw [ProducerConsumerQueue.contents_produce hq, List.length_append]
  rfl

/-- The database thread takes a job and executes it. -/
theorem Flooded.serve {n k : Nat} (h : Flooded st n) (hdb : st.databaseThread = .consuming)
    (hrequest : st.mDbJobRequestQueue.contents.length = k + 1) :
    ∃ st' t, Flooded st' n ∧ st'.mDbJobRequestQueue.contents.length = k ∧
      st'.databaseThread = .producing t ∧ st'.mDbJobResultQueue = st.mDbJobResultQueue := by
  cases hq : st.mDbJobRequestQueue.consume with
  | none =>
      rw [(ProducerConsumerQueue.consume_eq_none_iff _).mp hq] at hrequest
      cases hrequest
  | some r =>
      obtain ⟨t, q⟩ := r
      have hcontents := ProducerConsumerQueue.contents_consume hq
      rw [hcontents, List.length_cons] at hrequest
      have hconsume : st.step .consumeRequest = some { st with
          databaseThread := .executing t
          mDbJobRequestQueue := q } := by
        simp only [step, Event.ofClient, queueStep, hdb, hq]
        rfl
      have hexecute : ({ st with
          databaseThread := .executing t
          mDbJobRequestQueue := q } : Server).step (.execute true) = some { st with
            databaseThread := .producing { t with job := { t.job with mSuccess := false } }
            mDbJobRequestQueue := q } := rfl
      have hreach := reachable_step (reachable_step h.reachable hconsume) hexecute
      exact ⟨_, _, ⟨hreach, h.thread, h.valid, h.contents, h.outbox⟩, Nat.succ.inj hrequest, rfl,
        rfl⟩

/-- Its result goes into the result queue when there is room. -/
theorem Flooded.respond {n : Nat} {t : Ticket} (h : Flooded st n)
    (hdb : st.databaseThread = .producing t)
    (hroom : st.mDbJobResultQueue.contents.length < MAX_DB_JOB) :
    ∃ st', Flooded st' n ∧ st'.mDbJobRequestQueue = st.mDbJobRequestQueue ∧
      st'.databaseThread = .consuming ∧
      st'.mDbJobResultQueue.contents.length = st.mDbJobResultQueue.contents.length + 1 := by
  obtain ⟨q, hq⟩ := ProducerConsumerQueue.exists_produce t hroom
  have hproduce : st.step .produceResult = some { st with
      databaseThread := .consuming
      mDbJobResultQueue := q } := by
    simp only [step, Event.ofClient, queueStep, hdb, hq]
    rfl
  have hreach := reachable_step h.reachable hproduce
  refine ⟨_, ⟨hreach, h.thread, h.valid, h.contents, h.outbox⟩, rfl, rfl, ?_⟩
  rw [ProducerConsumerQueue.contents_produce hq, List.length_append]
  rfl

/-- `k` logins go through to the result queue. -/
theorem Flooded.pump {n : Nat} (k : Nat) (hk : k ≤ MAX_DB_JOB) (h : Flooded st (n + k))
    (hrequest : st.mDbJobRequestQueue.contents.length = 0)
    (hdb : st.databaseThread = .consuming) (hresult : st.mDbJobResultQueue.contents.length = 0) :
    ∃ st', Flooded st' n ∧ st'.mDbJobRequestQueue.contents.length = 0 ∧
      st'.databaseThread = .consuming ∧ st'.mDbJobResultQueue.contents.length = k := by
  induction k generalizing n with
  | zero => exact ⟨st, h, hrequest, hdb, hresult⟩
  | succ k ih =>
      obtain ⟨st₁, h₁, hreq₁, hdb₁, hres₁⟩ := ih (n := n + 1) (by omega)
        (by rwa [Nat.add_assoc, Nat.add_comm 1 k])
      obtain ⟨st₂, h₂, hreq₂, hdb₂, hres₂⟩ := h₁.request (by rw [hreq₁]; decide)
      obtain ⟨st₃, t, h₃, hreq₃, hdb₃, hres₃⟩ :=
        h₂.serve (hdb₂.trans hdb₁) (hreq₂.trans (by rw [hreq₁]))
      obtain ⟨st₄, h₄, hreq₄, hdb₄, hres₄⟩ := h₃.respond hdb₃ (by rw [hres₃, hres₂, hres₁]; omega)
      exact ⟨st₄, h₄, by rw [hreq₄, hreq₃], hdb₄, by rw [hres₄, hres₃, hres₂, hres₁]⟩

/-- `k` logins stay in the request queue while the database thread is blocked. -/
theorem Flooded.fill {n : Nat} {t : Ticket} (k : Nat) (hk : k ≤ MAX_DB_JOB)
    (h : Flooded st (n + k)) (hrequest : st.mDbJobRequestQueue.contents.length = 0)
    (hdb : st.databaseThread = .producing t) :
    ∃ st', Flooded st' n ∧ st'.mDbJobRequestQueue.contents.length = k ∧
      st'.databaseThread = .producing t ∧ st'.mDbJobResultQueue = st.mDbJobResultQueue := by
  induction k generalizing n with
  | zero => exact ⟨st, h, hrequest, hdb, rfl⟩
  | succ k ih =>
      obtain ⟨st₁, h₁, hreq₁, hdb₁, hres₁⟩ := ih (n := n + 1) (by omega)
        (by rwa [Nat.add_assoc, Nat.add_comm 1 k])
      obtain ⟨st₂, h₂, hreq₂, hdb₂, hres₂⟩ := h₁.request (by rw [hreq₁]; omega)
      exact ⟨st₂, h₂, by rw [hreq₂, hreq₁], hdb₂.trans hdb₁, hres₂.trans hres₁⟩

/-- The client thread sleeps, and the first session, with nothing received, has
    its whole receive buffer posted. -/
structure Listening (st : Server) : Prop where
  reachable : system.Reachable st
  thread : ∃ apcRan, st.clientThread = .sleeping apcRan
  outbox : st.world.outbox = []
  mConnected : (st.world.sessions 0).mConnected = true
  valid : (st.world.recv 0).Valid
  contents : (st.world.recv 0).contents = []
  getBuffer : (st.world.recv 0).getBuffer = 0
  room : (st.world.recv 0).room = BUFSIZE
  recvs : st.world.os.recvs = [⟨0, 0, BUFSIZE⟩]

theorem Listening.of_new (hr : system.Reachable st) {apcRan : Bool}
    (hthread : st.clientThread = .sleeping apcRan) (houtbox : st.world.outbox = [])
    (hconn : (st.world.sessions 0).mConnected = true) {mem : Nat → UInt8}
    (hrecv : st.world.recv 0 = .new BUFSIZE mem)
    (hposts : st.world.os.recvs = [⟨0, 0, BUFSIZE⟩]) : Listening st := by
  refine ⟨hr, ⟨apcRan, hthread⟩, houtbox, hconn, ?_, ?_, ?_, ?_, hposts⟩
  · rw [hrecv]
    exact CircularBuffer.valid_new BUFSIZE mem
  · rw [hrecv]
    exact CircularBuffer.contents_new BUFSIZE mem
  · rw [hrecv]
    rfl
  · rw [hrecv]
    rfl

/-- A receive brings whatever fits. -/
theorem Listening.receive (h : Listening st) (data : List UInt8) (hne : data ≠ [])
    (hfit : data.length ≤ BUFSIZE) :
    ∃ st', st' = { st with
        world := (st.world.recvCompletion ⟨0, 0, BUFSIZE⟩ false data).2
        clientThread := .reading 0 } ∧
      system.Reachable st' ∧ (st'.world.recv 0).Valid ∧ (st'.world.recv 0).contents = data ∧
      st'.world.outbox = [] := by
  obtain ⟨apcRan, hthread⟩ := h.thread
  have hmem : (⟨0, 0, BUFSIZE⟩ : RecvPost) ∈ st.world.os.recvs := by
    rw [h.recvs]
    exact List.mem_singleton.mpr rfl
  have hpost : World.Receiver.posts st.world 0 = [⟨0, 0, BUFSIZE⟩] := by
    rw [World.Receiver.posts, h.recvs]
    rfl
  have hwin : World.Receiver.Window st.world 0 := by
    intro p hp
    rw [hpost, List.mem_singleton] at hp
    rw [hpost, hp, h.getBuffer, h.room]
    exact ⟨rfl, rfl, rfl, by decide⟩
  obtain ⟨w', hrun, hv, hc, -, -, -⟩ := World.Receiver.recvCompletion_spec h.valid hwin
    (hpost ▸ List.mem_singleton.mpr rfl) h.mConnected hne hfit
  have hsilent := World.silent_recvCompletion st.world ⟨0, 0, BUFSIZE⟩ false data
  have hstep : st.step (.recvCompletion ⟨0, 0, BUFSIZE⟩ false data) =
      some { st with
        world := (st.world.recvCompletion ⟨0, 0, BUFSIZE⟩ false data).2
        clientThread := .reading 0 } := by
    simp only [step, Event.ofClient, if_true, h.outbox, List.isEmpty_nil, clientStep, hthread]
    rw [if_pos ⟨hmem, hfit⟩, hrun]
    rfl
  refine ⟨_, rfl, reachable_step h.reachable hstep, ?_, ?_, hsilent.outbox.trans h.outbox⟩
  · rw [hrun]
    exact hv
  · rw [hrun, hc, h.contents]
    rfl

/-- One receive may bring as many logins as fit into it. -/
theorem exists_flooded (n : Nat) (hn : 0 < n) (hfit : 8 * n ≤ BUFSIZE) :
    ∃ st, Flooded st n ∧ st.mDbJobRequestQueue.contents.length = 0 ∧
      st.databaseThread = .consuming ∧ st.mDbJobResultQueue.contents.length = 0 := by
  -- one client is connected, and nothing has been sent
  obtain ⟨st, hst, hthread, hrecv, hposts, hconn, houtbox, hrequest, hdb, hresult⟩ :
      ∃ st, system.run (new 0 (fun _ => true) (fun _ => none))
        [.accept 5, .produceAccepted, .takeAccepted (fun _ => 0) (fun _ => 0), .flush] = some st ∧
        st.clientThread = .sleeping false ∧ st.world.recv 0 = .new BUFSIZE (fun _ => 0) ∧
        st.world.os.recvs = [⟨0, 0, BUFSIZE⟩] ∧ (st.world.sessions 0).mConnected = true ∧
        st.world.outbox = [] ∧ st.mDbJobRequestQueue.contents.length = 0 ∧
        st.databaseThread = .consuming ∧ st.mDbJobResultQueue.contents.length = 0 :=
    ⟨_, rfl, rfl, rfl, rfl, rfl, rfl, rfl, rfl, rfl⟩
  have hlistening : Listening st :=
    .of_new (.run (.init ⟨_, _, _, rfl⟩) hst) hthread houtbox hconn hrecv hposts
  have hlen : (List.replicate n loginPacket).flatten.length = 8 * n := by
    rw [List.length_flatten, List.map_replicate, List.sum_replicate_nat, Nat.mul_comm]
    rfl
  obtain ⟨st', rfl, hreach, hv, hc, houtbox'⟩ := hlistening.receive
    (List.replicate n loginPacket).flatten
    (by rw [ne_eq, ← List.length_eq_zero_iff, hlen]; omega) (by rw [hlen]; exact hfit)
  exact ⟨_, ⟨hreach, rfl, hv, hc, houtbox'⟩, hrequest, hdb, hresult⟩

/-- 256 logins in one receive block both threads for ever. -/
theorem deadlocked_by_logins : ∃ st, system.Reachable st ∧ Deadlocked st := by
  obtain ⟨st₀, h₀, hreq₀, hdb₀, hres₀⟩ := exists_flooded 256 (by decide) (by decide)
  obtain ⟨st₁, h₁, hreq₁, hdb₁, hres₁⟩ :=
    Flooded.pump (n := 129) MAX_DB_JOB (Nat.le_refl _) h₀ hreq₀ hdb₀ hres₀
  -- one more job is executed, and its result does not fit
  obtain ⟨st₂, h₂, hreq₂, hdb₂, hres₂⟩ := Flooded.request (n := 128) h₁ (by rw [hreq₁]; decide)
  obtain ⟨st₃, t, h₃, hreq₃, hdb₃, hres₃⟩ :=
    h₂.serve (hdb₂.trans hdb₁) (hreq₂.trans (by rw [hreq₁]))
  obtain ⟨st₄, h₄, hreq₄, hdb₄, hres₄⟩ :=
    Flooded.fill (n := 1) MAX_DB_JOB (Nat.le_refl _) h₃ hreq₃ hdb₃
  -- the last login finds the request queue full
  obtain ⟨w', t', hread, -, -, houtbox⟩ := h₄.read
  refine ⟨_, reachable_step h₄.reachable hread, ?_, ?_, ⟨t, hdb₄⟩, ?_⟩
  · show w'.outbox ≠ []
    rw [houtbox]
    exact List.cons_ne_nil _ _
  · rw [← ProducerConsumerQueue.length_contents]
    exact hreq₄
  · show st₄.mDbJobResultQueue.mOccupiedSize = MAX_DB_JOB
    rw [hres₄, hres₃, hres₂, ← ProducerConsumerQueue.length_contents]
    exact hres₁

end Server
end EasyGameServer
