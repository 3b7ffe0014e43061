/-
  EasyGameServer.World.Evolves

  The frame rule of everything the client thread does between taking a socket
  and collecting garbage.  No operation creates, deletes or registers a
  session or gives it another socket; a socket is closed only by a session
  that loses its connection, and no session gains one; and every operation
  changes the reference count of a session by as much as it changes the
  number of outstanding I/Os and queued tasks of that session.

  `Evolves P` says so, where `P` holds of the sessions the operation may post
  or schedule for.  There is one lemma per operation.
-/

import EasyGameServer.PacketHandling

namespace EasyGameServer

open Lib

/-- The receives and sends outstanding for a session. -/
def Os.posted (os : Os) (this : SessionId) : Nat :=
  os.recvs.countP (fun p => p.owner = this) + os.sends.countP (fun p => p.owner = this)

namespace World

/-- The tasks queued for a session. -/
def tasks (w : World) (this : SessionId) : Nat :=
  w.scheduler.mTaskQueue.toList.countP (fun e => e.mOwner = this)

/-- What a session is counted for. -/
def held (w : World) (this : SessionId) : Nat := w.os.posted this + w.tasks this

/-- By how much a session's count is off. -/
def balance (w : World) (this : SessionId) : Int := (w.sessions this).mRefCount - w.held this

structure Evolves (P : SessionId → Prop) (w w' : World) : Prop where
  next : w'.next = w.next
  deleted : w'.deleted = w.deleted
  mClientList : w'.mClientList = w.mClientList
  mSocket : ∀ i, (w'.sessions i).mSocket = (w.sessions i).mSocket
  mConnected : ∀ i, (w'.sessions i).mConnected = true → (w.sessions i).mConnected = true
  opened : ∀ k, k ∈ w'.os.opened → k ∈ w.os.opened
  closed : ∀ k, k ∈ w.os.opened → k ∉ w'.os.opened → ∃ i,
    (w.sessions i).mSocket = k ∧ (w.sessions i).mConnected = true ∧
      (w'.sessions i).mConnected = false
  balance : ∀ i, w'.balance i = w.balance i
  held : ∀ i, 0 < w'.held i → 0 < w.held i ∨ P i

variable {P : SessionId → Prop} {w w' w'' : World} {this : SessionId}

/-- What sends or disconnects at most counts nothing. -/
theorem Calm.evolves (h : w.Calm w') : Evolves P w w' := by
  have hheld : ∀ i, w'.held i = w.held i := by
    intro i
    rw [World.held, World.held, Os.posted, Os.posted, tasks, tasks, h.recvs, h.sends,
      h.scheduler]
  refine ⟨h.next, h.deleted, h.mClientList, fun i => (h.sessions i).mSocket,
    fun i => (h.sessions i).mConnected, h.opened, h.closed, fun i => ?_, fun i hi => ?_⟩
  · rw [World.balance, World.balance, (h.sessions i).mRefCount, hheld]
  · rw [hheld] at hi
    exact Or.inl hi

namespace Evolves

theorem refl (w : World) : Evolves P w w := (Calm.refl w).evolves

theorem trans (h : Evolves P w w') (h' : Evolves P w' w'') : Evolves P w w'' where
  next := h'.next.trans h.next
  deleted := h'.deleted.trans h.deleted
  mClientList := h'.mClientList.trans h.mClientList
  mSocket i := (h'.mSocket i).trans (h.mSocket i)
  mConnected i hc := h.mConnected i (h'.mConnected i hc)
  opened k hk := h.opened k (h'.opened k hk)
  closed := by
    intro k hk hk''
    by_cases hk' : k ∈ w'.os.opened
    · obtain ⟨i, hsock, hconn, hdisc⟩ := h'.closed k hk' hk''
      exact ⟨i, (h.mSocket i).symm.trans hsock, h.mConnected i hconn, hdisc⟩
    · obtain ⟨i, hsock, hconn, hdisc⟩ := h.closed k hk hk'
      refine ⟨i, hsock, hconn, eq_false_of_ne_true (fun hc => ?_)⟩
      exact absurd (h'.mConnected i hc) (by simp [hdisc])
  balance i := (h'.balance i).trans (h.balance i)
  held := by
    intro i hi
    rcases h'.held i hi with hi | hi
    · exact h.held i hi
    · exact Or.inr hi

theorem mono {Q : SessionId → Prop} (h : Evolves P w w') (hPQ : ∀ i, P i → Q i) :
    Evolves Q w w' :=
  { h with held := fun i hi => (h.held i hi).imp_right (hPQ i) }

end Evolves

theorem evolves_foldl {α : Type _} {f : World → α → World} (as : List α)
    (h : ∀ (w : World), ∀ a ∈ as, Evolves P w (f w a)) (w : World) :
    Evolves P w (as.foldl f w) := by
  induction as generalizing w with
  | nil => exact .refl w
  | cons a as ih =>
      exact (h w a List.mem_cons_self).trans
        (ih (fun w b hb => h w b (List.mem_cons_of_mem _ hb)) (f w a))

/-! ## Stores -/

/-- A store of one session, with the I/Os or the tasks that go with its count. -/
theorem evolves_store {s : ClientSession} {os : Os}
    {scheduler : Scheduler SessionId SessionTask}
    (hw' : w' = { w.put this (s, os) with scheduler := scheduler })
    (hsock : s.mSocket = (w.sessions this).mSocket)
    (hconn : s.mConnected = (w.sessions this).mConnected) (hopened : os.opened = w.os.opened)
    (hself : s.mRefCount - w'.held this = w.balance this)
    (hother : ∀ i, i ≠ this → w'.held i = w.held i)
    (hP : w'.held this ≤ w.held this ∨ P this) : Evolves P w w' := by
  have hthis : w'.sessions this = s := by
    rw [hw']
    exact sessions_put_self w this (s, os)
  have hi : ∀ i, i ≠ this → w'.sessions i = w.sessions i := by
    intro i hne
    rw [hw']
    exact sessions_put_of_ne w (s, os) hne
  have hos : w'.os.opened = w.os.opened := by
    rw [hw']
    exact hopened
  refine ⟨by rw [hw']; rfl, by rw [hw']; rfl, by rw [hw']; rfl, ?_, ?_, ?_, ?_, ?_, ?_⟩
  · intro i
    by_cases hne : i = this
    · rw [hne, hthis, hsock]
    · rw [hi i hne]
  · intro i hc
    by_cases hne : i = this
    · rw [hne, hthis, hconn] at hc
      rwa [hne]
    · rwa [hi i hne] at hc
  · intro k hk
    rwa [← hos]
  · intro k hk hk'
    rw [hos] at hk'
    exact absurd hk hk'
  · intro i
    by_cases hne : i = this
    · rw [hne, World.balance, hthis]
      exact hself
    · rw [World.balance, World.balance, hi i hne, hother i hne]
  · intro i hpos
    by_cases hne : i = this
    · rw [hne] at hpos ⊢
      exact hP.imp_left (Nat.lt_of_lt_of_le hpos)
    · rw [hother i hne] at hpos
      exact Or.inl hpos

/-- A session that posts an I/O or queues a task counts it. -/
theorem evolves_count {s : ClientSession} {os : Os}
    {scheduler : Scheduler SessionId SessionTask}
    (hw' : w' = { w.put this (s, os) with scheduler := scheduler })
    (hsock : s.mSocket = (w.sessions this).mSocket)
    (hconn : s.mConnected = (w.sessions this).mConnected)
    (href : s.mRefCount = (w.sessions this).mRefCount + 1) (hopened : os.opened = w.os.opened)
    (hheld : ∀ i, w'.held i = w.held i + if this = i then 1 else 0) (hP : P this) :
    Evolves P w w' := by
  have hself := hheld this
  rw [if_pos rfl] at hself
  refine evolves_store hw' hsock hconn hopened ?_ ?_ (Or.inr hP)
  · rw [href, hself, World.balance]
    omega
  · intro i hne
    rw [hheld, if_neg (fun h => hne h.symm)]
    rfl

/-- A session whose I/O completes, or whose task has run, no longer counts it. -/
theorem evolves_uncount {s : ClientSession} {os : Os}
    {scheduler : Scheduler SessionId SessionTask}
    (hw' : w' = { w.put this (s, os) with scheduler := scheduler })
    (hsock : s.mSocket = (w.sessions this).mSocket)
    (hconn : s.mConnected = (w.sessions this).mConnected)
    (href : s.mRefCount = (w.sessions this).mRefCount - 1) (hopened : os.opened = w.os.opened)
    (hheld : ∀ i, w.held i = w'.held i + if this = i then 1 else 0) : Evolves P w w' := by
  have hself := hheld this
  rw [if_pos rfl] at hself
  refine evolves_store hw' hsock hconn hopened ?_ ?_ (Or.inl (by omega))
  · rw [href, World.balance]
    omega
  · intro i hne
    rw [hheld i, if_neg (fun h => hne h.symm)]
    rfl

/-- A store that counts nothing. -/
theorem evolves_put {s : ClientSession} {os : Os}
    (hsock : s.mSocket = (w.sessions this).mSocket)
    (hconn : s.mConnected = (w.sessions this).mConnected)
    (href : s.mRefCount = (w.sessions this).mRefCount) (hopened : os.opened = w.os.opened)
    (hposted : ∀ i, os.posted i = w.os.posted i) : Evolves P w (w.put this (s, os)) := by
  have hheld : ∀ i, (w.put this (s, os)).held i = w.held i := by
    intro i
    show os.posted i + w.tasks i = w.os.posted i + w.tasks i
    rw [hposted]
  refine evolves_store rfl hsock hconn hopened ?_ (fun i _ => hheld i) (Or.inl ?_)
  · rw [hheld, href]
    rfl
  · rw [hheld]

/-! ## Posting and completing -/

theorem posted_recv {os os' : Os} {owner : SessionId} {buf len : Nat}
    (hrecvs : os'.recvs = os.recvs ++ [⟨owner, buf, len⟩]) (hsends : os'.sends = os.sends)
    (i : SessionId) : os'.posted i = os.posted i + if owner = i then 1 else 0 := by
  simp only [Os.posted, hrecvs, hsends, List.countP_append, List.countP_singleton,
    decide_eq_true_eq]
  omega

theorem posted_send {os os' : Os} {owner : SessionId} {len : Nat}
    (hrecvs : os'.recvs = os.recvs) (hsends : os'.sends = os.sends ++ [⟨owner, len⟩])
    (i : SessionId) : os'.posted i = os.posted i + if owner = i then 1 else 0 := by
  simp only [Os.posted, hrecvs, hsends, List.countP_append, List.countP_singleton,
    decide_eq_true_eq]
  omega

theorem posted_erase_recv {os os' : Os} {post : RecvPost} (h : post ∈ os.recvs)
    (hrecvs : os'.recvs = os.recvs.erase post) (hsends : os'.sends = os.sends) (i : SessionId) :
    os.posted i = os'.posted i + if post.owner = i then 1 else 0 := by
  have hperm := (List.perm_cons_erase h).countP_eq (fun p => decide (p.owner = i))
  simp only [List.countP_cons, decide_eq_true_eq] at hperm
  rw [Os.posted, Os.posted, hrecvs, hsends]
  omega

theorem posted_erase_send {os os' : Os} {post : SendPost} (h : post ∈ os.sends)
    (hrecvs : os'.recvs = os.recvs) (hsends : os'.sends = os.sends.erase post) (i : SessionId) :
    os.posted i = os'.posted i + if post.owner = i then 1 else 0 := by
  have hperm := (List.perm_cons_erase h).countP_eq (fun p => decide (p.owner = i))
  simp only [List.countP_cons, decide_eq_true_eq] at hperm
  rw [Os.posted, Os.posted, hrecvs, hsends]
  omega

theorem evolves_post {s : ClientSession} {os : Os}
    (hsock : s.mSocket = (w.sessions this).mSocket)
    (hconn : s.mConnected = (w.sessions this).mConnected)
    (href : s.mRefCount = (w.sessions this).mRefCount + 1) (hopened : os.opened = w.os.opened)
    (hposted : ∀ i, os.posted i = w.os.posted i + if this = i then 1 else 0) (hP : P this) :
    Evolves P w (w.put this (s, os)) := by
  refine evolves_count rfl hsock hconn href hopened (fun i => ?_) hP
  show os.posted i + w.tasks i = w.os.posted i + w.tasks i + _
  rw [hposted, Nat.add_right_comm]

theorem evolves_complete {s : ClientSession} {os : Os}
    (hsock : s.mSocket = (w.sessions this).mSocket)
    (hconn : s.mConnected = (w.sessions this).mConnected)
    (href : s.mRefCount = (w.sessions this).mRefCount - 1) (hopened : os.opened = w.os.opened)
    (hposted : ∀ i, w.os.posted i = os.posted i + if this = i then 1 else 0) :
    Evolves P w (w.put this (s, os)) := by
  refine evolves_uncount rfl hsock hconn href hopened (fun i => ?_)
  show w.os.posted i + w.tasks i = os.posted i + w.tasks i + _
  rw [hposted, Nat.add_right_comm]

/-- `FlushClientSend` posts for registered sessions only. -/
theorem evolves_flushClientSend (w : World) :
    Evolves (fun i : SessionId => ∃ k : SOCKET, w.mClientList[k]? = some i) w
      w.flushClientSend := by
  refine evolves_foldl _ (fun w' it hit => ?_) w
  have hreg : ∃ k : SOCKET, w.mClientList[k]? = some it.2 :=
    ⟨it.1, Std.TreeMap.mem_toList_iff_getElem?_eq_some.mp hit⟩
  rcases (w'.sessions it.2).flushClientSend_cases it.2 w'.os with
    ⟨-, heq⟩ | ⟨-, -, k, heq⟩ | ⟨-, -, k, heq⟩
  · rw [heq]
    exact (calm_put (ClientSession.fades_refl _ _)).evolves
  · rw [heq]
    exact evolves_post rfl rfl rfl rfl (posted_send rfl rfl) hreg
  · rw [heq]
    obtain ⟨hkeeps, hrecvs, hsends, hopened⟩ := ClientSession.fades_disconnect
      (w'.sessions it.2)
      { w'.os with asked := k, wire := w'.os.wire ++ [⟨it.2, (w'.sessions it.2).pending, false⟩] }
    exact (calm_put ⟨hkeeps, hrecvs, hsends, hopened⟩).evolves

/-- The receive posted after a completion. -/
theorem evolves_recvExit (w : World) (this : SessionId) :
    Evolves (fun i => i = this) w (w.recvExit this) := by
  rcases recvExit_cases w this with ⟨-, hcalm⟩ | ⟨-, k, heq⟩ | ⟨-, k, hcalm⟩
  · exact hcalm.evolves
  · rw [heq]
    exact evolves_post rfl rfl rfl rfl (posted_recv rfl rfl) rfl
  · refine Evolves.trans ?_ hcalm.evolves
    exact evolves_put rfl rfl rfl rfl (fun _ => rfl)

theorem evolves_recvCompletion {post : RecvPost} (h : post ∈ w.os.recvs) (dwError : Bool)
    (data : List UInt8) : Evolves P w (w.recvCompletion post dwError data).2 := by
  rcases recvCompletion_cases w post dwError data with ⟨-, heq⟩ | ⟨-, -, heq⟩ | ⟨-, -, heq⟩
  · rw [heq]
    exact evolves_complete rfl rfl rfl rfl (posted_erase_recv h rfl rfl)
  · rw [heq]
    refine Evolves.trans ?_ (calm_disconnect _ post.owner).evolves
    exact evolves_complete rfl rfl rfl rfl (posted_erase_recv h rfl rfl)
  · rw [heq]
    exact evolves_complete rfl rfl rfl rfl (posted_erase_recv h rfl rfl)

theorem evolves_sendCompletion {post : SendPost} (h : post ∈ w.os.sends) (dwError : Bool)
    (cbTransferred : Nat) : Evolves P w (w.sendCompletion post dwError cbTransferred) := by
  unfold sendCompletion
  rcases (w.sessions post.owner).sendCompletion_cases dwError cbTransferred
      { w.os with sends := w.os.sends.erase post } with heq | heq | heq
  · rw [heq]
    exact evolves_complete rfl rfl rfl rfl (posted_erase_send h rfl rfl)
  · rw [heq]
    have hdisc := calm_disconnect (w.put post.owner
      ((w.sessions post.owner).decRefCount, { w.os with sends := w.os.sends.erase post }))
      post.owner
    rw [disconnect, put_put, sessions_put_self] at hdisc
    refine Evolves.trans ?_ hdisc.evolves
    exact evolves_complete rfl rfl rfl rfl (posted_erase_send h rfl rfl)
  · rw [heq]
    exact evolves_complete rfl rfl rfl rfl (posted_erase_send h rfl rfl)

/-! ## Tasks -/

/-- Pushing jobs and writing the history counts nothing. -/
theorem evolves_history (w : World) (outbox pushed : List Ticket) (trace : List Note) :
    Evolves P w { w with outbox := outbox, pushed := pushed, trace := trace } where
  next := rfl
  deleted := rfl
  mClientList := rfl
  mSocket _ := rfl
  mConnected _ hc := hc
  opened _ hk := hk
  closed _ hk hk' := absurd hk hk'
  balance _ := rfl
  held _ hi := Or.inl hi

/-- `CallFuncAfter` counts the task it queues. -/
theorem evolves_callFuncAfter (w : World) (after : UInt32) (memfunc : SessionTask)
    (hP : P this) : Evolves P w (w.callFuncAfter after this memfunc) := by
  refine evolves_count rfl rfl rfl rfl rfl (fun i => ?_) hP
  show w.os.posted i + (w.callFuncAfter after this memfunc).tasks i = _
  rw [tasks, callFuncAfter, Scheduler.pushTask, (PriorityQueue.push_perm _ _).countP_eq,
    List.countP_cons]
  simp only [decide_eq_true_eq]
  exact (Nat.add_assoc _ _ _).symm

/-- A task of a session queues at most one more task, for that session; the
    periodic update has pushed a job before. -/
theorem runTask_cases (w : World) (e : JobElement SessionId SessionTask) :
    w.runTask e = w ∨
      (∃ after, w.runTask e = w.callFuncAfter after e.mOwner .onTick) ∨
      (∃ after, w.runTask e =
        (w.pushDatabaseJobRequest e.mOwner (updateJob (w.sessions e.mOwner))).callFuncAfter
          after e.mOwner .onDbUpdate) := by
  unfold runTask onTick onDbUpdate
  split
  · split
    · exact Or.inr (Or.inl ⟨_, rfl⟩)
    · exact Or.inl rfl
  · split
    · exact Or.inr (Or.inr ⟨_, rfl⟩)
    · exact Or.inl rfl

/-- Whatever a task does, the front of the queue is then still a job of the
    same session. -/
theorem top_runTask {e : JobElement SessionId SessionTask}
    (h : w.scheduler.mTaskQueue.top = some e) :
    ∃ f, (w.runTask e).scheduler.mTaskQueue.top = some f ∧ f.mOwner = e.mOwner := by
  have hpush : ∀ (task : SessionTask) (after : UInt32), ∃ f,
      (w.scheduler.pushTask e.mOwner task after).mTaskQueue.top = some f ∧
        f.mOwner = e.mOwner := by
    intro task after
    rw [Scheduler.top_pushTask h]
    split
    · exact ⟨_, rfl, rfl⟩
    · exact ⟨_, rfl, rfl⟩
  rcases runTask_cases w e with heq | ⟨after, heq⟩ | ⟨after, heq⟩
  · rw [heq]
    exact ⟨e, h, rfl⟩
  · rw [heq]
    exact hpush .onTick after
  · rw [heq]
    exact hpush .onDbUpdate after

theorem evolves_runTask (w : World) (e : JobElement SessionId SessionTask) :
    Evolves (fun i => i = e.mOwner) w (w.runTask e) := by
  rcases runTask_cases w e with heq | ⟨after, heq⟩ | ⟨after, heq⟩
  · rw [heq]
    exact .refl w
  · rw [heq]
    exact evolves_callFuncAfter w after _ rfl
  · rw [heq]
    exact (evolves_history w _ _ _).trans (evolves_callFuncAfter _ after _ rfl)

/-- One iteration of `DoTasks` runs the due task at the front and pops the queue. -/
theorem doTask_eq (h : w.doTask = some w') :
    ∃ e, w.scheduler.dueTop = some e ∧
      w' = { (w.runTask e).modify e.mOwner ClientSession.decRefCount with
        scheduler := (w.runTask e).scheduler.pop } := by
  unfold doTask at h
  split at h
  next => cases h
  next e hdue =>
    cases h
    exact ⟨e, hdue, rfl⟩

/-- It counts off the task it takes off the queue. -/
theorem evolves_doTask (h : w.doTask = some w') : Evolves P w w' := by
  obtain ⟨e, hdue, rfl⟩ := doTask_eq h
  obtain ⟨htop, -⟩ := Scheduler.dueTop_eq_some_iff.mp hdue
  obtain ⟨f, hf, howner⟩ := top_runTask htop
  have hrun := evolves_runTask w e
  have hqueued : 0 < w.held e.mOwner := by
    have hmem := PriorityQueue.mem_of_top htop
    have hpos : 0 < w.tasks e.mOwner :=
      List.countP_pos_iff.mpr ⟨e, hmem, decide_eq_true rfl⟩
    rw [World.held]
    omega
  -- the task was counted for its session before
  have hrun' : Evolves P w (w.runTask e) :=
    { hrun with
      held := fun i hi => by
        rcases hrun.held i hi with hi | rfl
        · exact Or.inl hi
        · exact Or.inl hqueued }
  refine hrun'.trans (evolves_uncount rfl rfl rfl rfl rfl (fun i => ?_))
  show _ = (w.runTask e).os.posted i +
    (w.runTask e).scheduler.pop.mTaskQueue.toList.countP (fun e => e.mOwner = i) + _
  -- the popped job is the session's, even if the call has queued one before it
  rw [held, tasks, Scheduler.pop, ← (PriorityQueue.pop_perm hf).countP_eq, List.countP_cons,
    howner]
  simp only [decide_eq_true_eq]
  exact (Nat.add_assoc _ _ _).symm

/-! ## Results -/

theorem evolves_onTick (w : World) (hP : P this) : Evolves P w (w.onTick this) := by
  unfold onTick
  split
  · exact evolves_callFuncAfter w _ _ hP
  · exact .refl w

theorem evolves_onDbUpdate (w : World) (hP : P this) : Evolves P w (w.onDbUpdate this) := by
  unfold onDbUpdate
  split
  · exact (evolves_history w _ _ _).trans (evolves_callFuncAfter _ _ _ hP)
  · exact .refl w

theorem evolves_loginDone (w : World) (pid : Int32) (x y : CFloat) (name : CString maxNameLen)
    (hP : P this) : Evolves P w (w.loginDone this pid x y name) := by
  unfold loginDone
  refine Evolves.trans ?_ (evolves_onDbUpdate _ hP)
  refine Evolves.trans ?_ (evolves_onTick _ hP)
  refine Evolves.trans ?_ (calm_modify _ this ⟨rfl, rfl, rfl, rfl, id⟩).evolves
  refine Evolves.trans ?_ (calm_sendRequest _ this _).evolves
  refine (evolves_history w w.outbox w.pushed (w.note (.loginDone this pid)).trace).trans ?_
  exact evolves_put rfl rfl rfl rfl (fun _ => rfl)

/-- What a result does: nothing, or it logs in the session registered under
    the job's socket, which is connected. -/
theorem dispatchDatabaseJobResult_cases {job : DatabaseJobContext}
    (h : w.dispatchDatabaseJobResult job = some w') :
    w' = w ∨
      ∃ client login, job.mSuccess = true ∧ job.data = .load login ∧
        w.mClientList[job.mSockKey]? = some client ∧
        (w.sessions client).mConnected = true ∧
        (w.sessions client).mSocket = job.mSockKey ∧
        w' = w.loginDone client login.mPlayerId (doubleToFloat login.mPosX)
          (doubleToFloat login.mPosY) login.mPlayerName := by
  unfold dispatchDatabaseJobResult at h
  by_cases hok : job.mSuccess = true
  · rw [if_pos hok] at h
    cases hreg : w.mClientList[job.mSockKey]? with
    | none =>
        simp only [hreg] at h
        refine Or.inl ?_
        split at h <;> exact (Option.some.inj h).symm
    | some client =>
        simp only [hreg] at h
        by_cases hconn : (w.sessions client).mConnected = true
        · simp only [hconn, if_true, databaseJobDone] at h
          cases hdata : job.data with
          | load login =>
              simp only [hdata] at h
              split at h
              next hsock =>
                exact Or.inr ⟨client, login, hok, rfl, rfl, hconn, hsock,
                  (Option.some.inj h).symm⟩
              next => cases h
          | update u =>
              simp only [hdata] at h
              split at h
              next => exact Or.inl (Option.some.inj h).symm
              next => cases h
          | create c =>
              simp only [hdata] at h
              exact Or.inl (Option.some.inj h).symm
          | delete d =>
              simp only [hdata] at h
              exact Or.inl (Option.some.inj h).symm
        · simp only [hconn] at h
          refine Or.inl ?_
          split at h <;> exact (Option.some.inj h).symm
  · rw [if_neg hok] at h
    exact Or.inl (Option.some.inj h).symm

theorem evolves_dispatchDatabaseJobResult {job : DatabaseJobContext}
    (h : w.dispatchDatabaseJobResult job = some w') :
    Evolves (fun i : SessionId => ∃ k : SOCKET, w.mClientList[k]? = some i) w w' := by
  rcases dispatchDatabaseJobResult_cases h with heq | ⟨client, login, -, -, hreg, -, -, heq⟩
  · rw [heq]
    exact .refl w
  · rw [heq]
    exact evolves_loginDone w _ _ _ _ ⟨_, hreg⟩

/-! ## Reading -/

/-- What an iteration of `OnRead` that goes on does to the world: it keeps calm,
    or a packet is consumed, whose load is pushed if it is a login request. -/
inductive Consumes (this : SessionId) (w : World) : World → Prop
  | calm {w' : World} (hcalm : w.Calm w') : Consumes this w w'
  | login (bytes : List UInt8) (rest : CircularBuffer) : Consumes this w
      ((w.consumed this .pktCsLogin bytes rest).pushDatabaseJobRequest this
        (loadJob (w.sessions this).mSocket (.ofBytes bytes)))
  | other {w' : World} (r : Registered) (bytes : List UInt8) (rest : CircularBuffer)
      (hr : r ≠ .login) (hcalm : (w.consumed this r.type bytes rest).Calm w') :
      Consumes this w w'

theorem consumes_of_onReadBody (h : onReadBody this w = .again w') : Consumes this w w' := by
  cases readsAgain_of_onReadBody h with
  | hungUp => exact .calm (calm_disconnect w this)
  | short => exact .calm (.refl w)
  | read r bytes rest _ _ hread hrun =>
      rcases handler_of_read r hread with ⟨rfl, heq⟩ | ⟨-, heq⟩ | ⟨hr, -, w₁, heq, hcalm⟩
      · cases heq.symm.trans hrun
        exact .login bytes rest
      · cases heq.symm.trans hrun
      · cases heq.symm.trans hrun
        exact .other r bytes rest hr hcalm

/-- One that leaves the loop has hung up at most. -/
theorem onReadBody_leave (h : onReadBody this w = .leave (some w')) : w.Calm w' := by
  rcases eq_of_onReadBody_leave h with rfl | rfl
  · exact .refl _
  · exact calm_disconnect w this

/-- An iteration of `OnRead` posts nothing. -/
theorem evolves_onReadBody (h : onReadBody this w = .again w') : Evolves P w w' := by
  have hconsumed : ∀ r bytes rest, Evolves P w (w.consumed this r bytes rest) := by
    intro r bytes rest
    refine Evolves.trans ?_ (evolves_history _ w.outbox w.pushed _)
    exact evolves_put rfl rfl rfl rfl (fun _ => rfl)
  cases consumes_of_onReadBody h with
  | calm hcalm => exact hcalm.evolves
  | login bytes rest => exact (hconsumed _ bytes rest).trans (evolves_history _ _ _ _)
  | other r bytes rest _ hcalm => exact (hconsumed _ bytes rest).trans hcalm.evolves

end World
end EasyGameServer
