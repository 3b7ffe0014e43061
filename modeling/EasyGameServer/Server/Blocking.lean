/-
  EasyGameServer.Server.Blocking

  How long `PushDatabaseJobRequest` can block.  While the client thread waits
  for room in the request queue it dispatches no results, so it is up to the
  database thread alone.  With at most `maxInFlight` jobs on their way that is
  enough: the push returns after a bounded number of steps, whoever else runs
  in between.  With one more it never returns.
-/

import EasyGameServer.Lib.Progress
import EasyGameServer.Server.Deadlock
import EasyGameServer.Server.Survival

namespace EasyGameServer

open Lib

/-- The steps the thread's job still has to take to the result queue. -/
def DatabaseThread.work : DatabaseThread → Nat
  | .consuming => 0
  | .executing _ => 2
  | .producing _ => 1

namespace Server

/-- The steps that take a job on its way: `Produce` and `Consume` of the two
    queues, but for the client thread's `Consume`, and the execution. -/
def Event.helpsPush : Event → Bool
  | .produceRequest => true
  | .consumeRequest => true
  | .execute _ => true
  | .produceResult => true
  | _ => false

/-- The steps all jobs still have to take. -/
def work (st : Server) : Nat :=
  4 * st.world.outbox.length + 3 * st.mDbJobRequestQueue.contents.length
    + st.databaseThread.work

variable {st st' : Server}

/-- While the client thread is blocked, no job is added and none is dispatched,
    and every helping step takes one job one step further. -/
theorem step_of_blocked {a : Event} (hblocked : st.world.outbox ≠ []) (h : st.step a = some st') :
    st'.jobs.length = st.jobs.length ∧
      st'.work + (if a.helpsPush then 1 else 0) = st.work := by
  cases step_moves h with
  | accept => exact ⟨rfl, rfl⟩
  | produceAccepted => exact ⟨rfl, rfl⟩
  | produceRequest t rest q houtbox hq =>
      have hlen := congrArg List.length (ProducerConsumerQueue.contents_produce hq)
      rw [List.length_append, List.length_singleton] at hlen
      simp only [jobs, work, houtbox, Event.helpsPush, List.length_append, List.length_cons, hlen,
        if_true]
      omega
  | consumeRequest t q hdb hq =>
      have hlen := congrArg List.length (ProducerConsumerQueue.contents_consume hq)
      rw [List.length_cons] at hlen
      simp only [jobs, work, hdb, Event.helpsPush, List.length_append, DatabaseThread.job,
        DatabaseThread.work, List.length_nil, List.length_singleton, hlen, if_true]
      omega
  | execute ioError t job players hdb hexec =>
      simp only [jobs, work, hdb, Event.helpsPush, List.length_append, DatabaseThread.job,
        DatabaseThread.work, List.length_singleton, if_true, true_and]
  | produceResult t q hdb hq =>
      have hlen := congrArg List.length (ProducerConsumerQueue.contents_produce hq)
      rw [List.length_append, List.length_singleton] at hlen
      constructor
      · simp only [jobs, hdb, List.length_append, DatabaseThread.job, List.length_nil,
          List.length_singleton, hlen]
      · simp only [work, hdb, Event.helpsPush, DatabaseThread.work, if_true]
  | _ => exact absurd (by assumption) hblocked

/-- More jobs than fit leave one in the outbox. -/
theorem outbox_ne_nil_of_length_jobs (h : maxInFlight < st.jobs.length) :
    st.world.outbox ≠ [] := by
  intro hempty
  have hrequest := st.mDbJobRequestQueue.occupied_le
  have hresult := st.mDbJobResultQueue.occupied_le
  have hjob : st.databaseThread.job.length ≤ 1 := by
    cases st.databaseThread with
    | consuming => exact Nat.zero_le _
    | executing t => exact Nat.le_refl _
    | producing t => exact Nat.le_refl _
  rw [length_jobs, hempty, List.length_nil, maxInFlight] at h
  omega

/-- A helping step is possible as long as the jobs fit. -/
theorem exists_helping_step (hfit : st.players.NamesFit) (hjobs : st.jobs.length ≤ maxInFlight)
    (hblocked : st.world.outbox ≠ []) :
    ∃ a st', a.helpsPush = true ∧ st.step a = some st' := by
  obtain ⟨t, rest, houtbox⟩ := List.exists_cons_of_ne_nil hblocked
  have hhelps : ∀ a : Event, a.helpsPush = true → (st.step a).isSome →
      ∃ a st', a.helpsPush = true ∧ st.step a = some st' := by
    intro a ha hsome
    obtain ⟨st', hst'⟩ := Option.isSome_iff_exists.mp hsome
    exact ⟨a, st', ha, hst'⟩
  by_cases hroom : st.mDbJobRequestQueue.contents.length < MAX_DB_JOB
  · obtain ⟨q, hq⟩ := ProducerConsumerQueue.exists_produce t hroom
    exact hhelps .produceRequest rfl (by simp [step, Event.ofClient, queueStep, houtbox, hq])
  · -- the request queue is full, so it is the database thread's turn
    rw [ProducerConsumerQueue.length_contents] at hroom
    have hmax : MAX_DB_JOB = 127 := rfl
    cases hdb : st.databaseThread with
    | consuming =>
        cases hq : st.mDbJobRequestQueue.consume with
        | none =>
            have hnil := (ProducerConsumerQueue.consume_eq_none_iff _).mp hq
            have hlen := congrArg List.length hnil
            rw [ProducerConsumerQueue.length_contents, List.length_nil] at hlen
            omega
        | some r =>
            exact hhelps .consumeRequest rfl (by simp [step, Event.ofClient, queueStep, hdb, hq])
    | executing t =>
        exact hhelps (.execute false) rfl
          (by simp [step, Event.ofClient, queueStep, hdb, isSome_execute hfit t.job false])
    | producing t =>
        have hresult : st.mDbJobResultQueue.contents.length < MAX_DB_JOB := by
          simp only [length_jobs, hdb, houtbox, maxInFlight, DatabaseThread.job, List.length_cons,
            List.length_nil] at hjobs
          rw [ProducerConsumerQueue.length_contents]
          omega
        obtain ⟨q, hq⟩ := ProducerConsumerQueue.exists_produce t hresult
        exact hhelps .produceResult rfl (by simp [step, Event.ofClient, queueStep, hdb, hq])

/-- The server on a table whose names fit. -/
abbrev fitting : System Server Event :=
  system.startingWith (fun st => st.players.NamesFit)

theorem drains_push :
    fitting.Drains Event.helpsPush
      (fun st => fitting.Reachable st ∧ st.jobs.length ≤ maxInFlight)
      (fun st => st.world.outbox = []) work where
  keeps _ _ _ h hblocked hstep :=
    ⟨.step h.1 trivial hstep, (step_of_blocked hblocked hstep).1 ▸ h.2⟩
  works _ _ _ _ hblocked hstep := Nat.le_of_eq (step_of_blocked hblocked hstep).2
  goes _ h hblocked := exists_helping_step (isInvariant_namesFit.holds h.1) h.2 hblocked

/-- Jobs that are too many stay. -/
theorem length_jobs_run {as : List Event} (h : maxInFlight < st.jobs.length)
    (hrun : fitting.run st as = some st') : maxInFlight < st'.jobs.length := by
  induction as generalizing st with
  | nil =>
      cases hrun
      exact h
  | cons a as ih =>
      obtain ⟨t, hstep, hrest⟩ := Option.bind_eq_some_iff.mp hrun
      have hsame := (step_of_blocked (outbox_ne_nil_of_length_jobs h) hstep).1
      exact ih (hsame ▸ h) hrest

/-- **Pushes.**  A job the client thread has pushed can get into the request
    queue exactly when no more than `maxInFlight` jobs are on their way.  Then
    it does, whoever else runs in between: in every continuation the push has
    returned at some point, or no more than `work` helping steps have been
    taken and another one is possible. -/
theorem push_returns_iff (st : Server) (h : fitting.Reachable st) :
    ((∃ as st', fitting.run st as = some st' ∧ st'.world.outbox = []) ↔
      st.jobs.length ≤ maxInFlight) ∧
    (st.jobs.length ≤ maxInFlight → ∀ as st', fitting.run st as = some st' →
      (∃ bs t, bs <+: as ∧ fitting.run st bs = some t ∧ t.world.outbox = []) ∨
        (as.countP Event.helpsPush ≤ st.work ∧
          ∃ a t, a.helpsPush = true ∧ st'.step a = some t)) := by
  refine ⟨⟨?_, fun hjobs => ?_⟩, fun hjobs as st' hrun => ?_⟩
  · rintro ⟨as, st', hrun, hempty⟩
    by_contra hmore
    exact outbox_ne_nil_of_length_jobs (length_jobs_run (Nat.lt_of_not_le hmore) hrun) hempty
  · obtain ⟨as, st', -, hrun, hempty⟩ := drains_push.exists_run ⟨h, hjobs⟩
    exact ⟨as, st', hrun, hempty⟩
  · rcases drains_push.run ⟨h, hjobs⟩ hrun with hreturned | ⟨hcount, hgoes⟩
    · exact Or.inl hreturned
    · exact Or.inr ⟨Nat.le_trans (Nat.le_add_right _ _) hcount, hgoes⟩

/-- A client has asked to be logged in. -/
theorem push_returns_iff_login :
    ∃ st, fitting.Reachable st ∧ st.world.outbox ≠ [] ∧
      ∃ as st', fitting.run st as = some st' ∧ st'.world.outbox = [] := by
  have hrun : (fitting.run (new 0 (fun _ => true) (fun _ => none))
      [.accept 5, .produceAccepted, .takeAccepted (fun _ => 0) (fun _ => 0), .flush,
        .recvCompletion ⟨0, 0, BUFSIZE⟩ false loginPacket, .read]).map
      (fun st => (st.world.outbox.length, decide (st.jobs.length ≤ maxInFlight)))
      = some (1, true) := by
    decide +kernel
  obtain ⟨st, hst, hall⟩ := Option.map_eq_some_iff.mp hrun
  simp only [Prod.mk.injEq, decide_eq_true_eq] at hall
  obtain ⟨hone, hjobs⟩ := hall
  have hfit : Players.NamesFit (fun _ => none) := by
    intro pid row hrow
    cases hrow
  have hinit : fitting.Reachable (new 0 (fun _ => true) (fun _ => none)) :=
    .init ⟨⟨_, _, _, rfl⟩, hfit⟩
  have hreach : fitting.Reachable st := hinit.run hst
  refine ⟨st, hreach, ?_, ((push_returns_iff st hreach).1).mpr hjobs⟩
  rw [← List.length_pos_iff, hone]
  exact Nat.one_pos

end Server
end EasyGameServer
