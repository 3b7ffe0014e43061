/-
  EasyGameServer.Server.Saves

  What the server ever asks of the table of players.  Sessions push two kinds
  of jobs, the load of a login request and the update of `OnDbUpdate`, so a row
  is never made nor taken away.  The update carries x and y and a comment;
  its `mPosZ` is the constructor's, and the statement writes it with the rest.
-/

import EasyGameServer.Server.LoginRouting
import EasyGameServer.Roster

namespace EasyGameServer

open Lib

namespace Server

-- ============================================================================
-- The jobs on their way to the database
-- ============================================================================

/-- The jobs that have not been executed. -/
def unexecuted (st : Server) : List Ticket :=
  (match st.databaseThread with
    | .executing t => [t]
    | _ => []) ++ (st.mDbJobRequestQueue.contents ++ st.world.outbox)

/-- The executed jobs that have not been dispatched. -/
def results (st : Server) : List Ticket :=
  st.mDbJobResultQueue.contents ++
    match st.databaseThread with
    | .producing t => [t]
    | _ => []

variable {st st' : Server}

/-- A step that leaves the queues alone and pushes what sessions push. -/
theorem unexecuted_of_outbox {js : List Ticket} (hdb : st'.databaseThread = st.databaseThread)
    (hrequest : st'.mDbJobRequestQueue = st.mDbJobRequestQueue)
    (houtbox : st'.world.outbox = st.world.outbox ++ js) (hjs : ∀ t ∈ js, Issued t.job) :
    ∀ t ∈ st'.unexecuted, t ∈ st.unexecuted ∨ Issued t.job := by
  intro t ht
  have happend : st'.unexecuted = st.unexecuted ++ js := by
    simp only [unexecuted, hdb, hrequest, houtbox, List.append_assoc]
  rw [happend] at ht
  exact (List.mem_append.mp ht).imp_right (hjs t)

/-- An unexecuted job was there before the step, or a session pushes it. -/
theorem unexecuted_step {a : Event} (h : st.step a = some st') :
    ∀ t ∈ st'.unexecuted, t ∈ st.unexecuted ∨ Issued t.job := by
  cases step_queueMoves h with
  | push a js st' _ hrequest _ hdb houtbox _ _ _ hissued _ =>
      exact unexecuted_of_outbox hdb hrequest houtbox hissued
  | dispatch t q w js _ _ _ houtbox _ _ hupdates =>
      refine unexecuted_of_outbox rfl rfl houtbox (fun t' ht' => ?_)
      obtain ⟨s, hjob⟩ := hupdates t' ht'
      rw [hjob]
      exact .update s
  | produceRequest t rest q houtbox hq =>
      intro t' ht'
      refine Or.inl ?_
      have hsame : q.contents ++ rest = st.mDbJobRequestQueue.contents ++ st.world.outbox := by
        rw [ProducerConsumerQueue.contents_produce hq, houtbox, List.append_assoc]
        rfl
      show t' ∈ _ ++ _
      rw [← hsame]
      exact ht'
  | consumeRequest t q hdb hq =>
      intro t' ht'
      refine Or.inl ?_
      rw [unexecuted, hdb, ProducerConsumerQueue.contents_consume hq]
      exact ht'
  | execute ioError t job players hdb hexec =>
      intro t' ht'
      exact Or.inl (List.mem_append_right _ ht')
  | produceResult t q hdb hq =>
      intro t' ht'
      exact Or.inl (List.mem_append_right _ ht')

theorem isInvariant_issued :
    system.IsInvariant System.always (fun st => ∀ t ∈ st.unexecuted, Issued t.job) where
  init := by
    rintro _ ⟨tick, answers, players, rfl⟩ t ht
    exact absurd ht List.not_mem_nil
  step := by
    intro st a st' _ h _ hstep t ht
    rcases unexecuted_step hstep t ht with hold | hnew
    · exact h t hold
    · exact hnew

/-- The job being executed is one that sessions push. -/
theorem issued_of_executing {t : Ticket} (h : system.Reachable st)
    (hdb : st.databaseThread = .executing t) : Issued t.job := by
  refine isInvariant_issued.holds h t ?_
  rw [unexecuted, hdb]
  exact List.mem_append_left _ (List.mem_singleton.mpr rfl)

-- ============================================================================
-- What they do to the table
-- ============================================================================

/-- Executing a job of a session changes at most the row the job is about, if
    there is one, and of a row at most the position and the comment; and only
    an update changes anything. -/
theorem players_execute {job job' : DatabaseJobContext} {db db' : Players} {ioError : Bool}
    (hissued : Issued job) (h : job.execute db ioError = some (job', db')) :
    db' = db ∨ ∃ s row, job = World.updateJob s ∧ ioError = false ∧
      db s.mPlayerId = some row ∧
      db' = db.set s.mPlayerId (some { row with
        posX := storedDouble (floatToDouble s.mPosX)
        posY := storedDouble (floatToDouble s.mPosY)
        posZ := 0
        comment := World.updatedTest.text }) := by
  obtain ⟨⟨ok, done, db₁⟩, hexec, heq⟩ := Option.map_eq_some_iff.mp h
  cases heq
  cases ioError with
  | true =>
      cases hexec
      exact Or.inl rfl
  | false =>
      cases DatabaseJobContext.executes_of_onExecute hexec with
      | create c hdata => cases hissued <;> cases hdata
      | delete c hdata => cases hissued <;> cases hdata
      | update c row hdata hrow =>
          cases hissued with
          | load sock inPacket => cases hdata
          | update s =>
              cases hdata
              refine Or.inr ⟨s, row, rfl, rfl, hrow, ?_⟩
              show db.set _ (some ⟨_, _, _, storedDouble 0, _⟩) = _
              rw [storedDouble_zero]
      | _ => exact Or.inl rfl

/-- Only an execution touches the table. -/
theorem players_step {a : Event} (h : st.step a = some st') (hr : system.Reachable st) :
    st'.players = st.players ∨ ∃ t s row, a = .execute false ∧
      st.databaseThread = .executing t ∧ t.job = World.updateJob s ∧
      st.players s.mPlayerId = some row ∧
      st'.players = st.players.set s.mPlayerId (some { row with
        posX := storedDouble (floatToDouble s.mPosX)
        posY := storedDouble (floatToDouble s.mPosY)
        posZ := 0
        comment := World.updatedTest.text }) := by
  cases step_moves h with
  | execute ioError t job players hdb hexec =>
      rcases players_execute (issued_of_executing hr hdb) hexec with
        heq | ⟨s, row, hjob, rfl, hrow, heq⟩
      · exact Or.inl heq
      · exact Or.inr ⟨t, s, row, rfl, hdb, hjob, hrow, heq⟩
  | _ => exact Or.inl rfl

/-- A load succeeds only on a row. -/
theorem exists_of_loaded {job job' : DatabaseJobContext} {db db' : Players} {ioError : Bool}
    (h : job.execute db ioError = some (job', db')) (hload : job'.isLoad = true)
    (hsuccess : job'.mSuccess = true) : db job'.playerId ≠ none := by
  obtain ⟨-, hplayer, hsame⟩ := DatabaseJobContext.execute_spec h
  rw [hplayer]
  rw [hsame] at hload
  obtain ⟨⟨ok, done, db₁⟩, hexec, heq⟩ := Option.map_eq_some_iff.mp h
  cases heq
  cases ioError with
  | true =>
      cases hexec
      cases hsuccess
  | false =>
      cases DatabaseJobContext.executes_of_onExecute hexec with
      | loadRow c row name hdata hrow =>
          rw [DatabaseJobContext.playerId, hdata]
          intro hnone
          cases hrow.symm.trans hnone
      | loadNone => cases hsuccess
      | createTaken => cases hsuccess
      | create c hdata =>
          rw [DatabaseJobContext.isLoad, hdata] at hload
          cases hload
      | delete c hdata =>
          rw [DatabaseJobContext.isLoad, hdata] at hload
          cases hload
      | updateNone c hdata =>
          rw [DatabaseJobContext.isLoad, hdata] at hload
          cases hload
      | update c row hdata =>
          rw [DatabaseJobContext.isLoad, hdata] at hload
          cases hload

/-- A result was there before the step, or it is the job just executed. -/
theorem results_step {a : Event} (h : st.step a = some st') :
    ∀ t ∈ st'.results, t ∈ st.results ∨ ∃ t₀ ioError, st.databaseThread = .executing t₀ ∧
      t₀.job.execute st.players ioError = some (t.job, st'.players) := by
  cases step_moves h with
  | dispatchJob t q w _ _ hq _ =>
      intro t' ht'
      refine Or.inl ?_
      rw [results, ProducerConsumerQueue.contents_consume hq]
      exact List.mem_cons_of_mem _ ht'
  | consumeRequest =>
      intro t' ht'
      rcases List.mem_append.mp ht' with ht' | ht'
      · exact Or.inl (List.mem_append_left _ ht')
      · cases ht'
  | execute ioError t job players hdb hexec =>
      intro t' ht'
      rcases List.mem_append.mp ht' with ht' | ht'
      · exact Or.inl (List.mem_append_left _ ht')
      · rw [List.mem_singleton.mp ht']
        exact Or.inr ⟨t, ioError, hdb, hexec⟩
  | produceResult t q hdb hq =>
      intro t' ht'
      refine Or.inl ?_
      rw [results, hdb, ← ProducerConsumerQueue.contents_produce hq]
      rcases List.mem_append.mp ht' with ht' | ht'
      · exact ht'
      · cases ht'
  | _ => exact fun t ht => Or.inl ht

/-- A player the table does not have at the start is never loaded. -/
theorem isInvariant_absent (ok : Server → Event → Prop) (pid : Int32) :
    (system.startingWith (fun st => st.players pid = none)).IsInvariant ok
      (fun st => st.players pid = none ∧
        ∀ t ∈ st.results, t.job.isLoad = true → t.job.mSuccess = true → t.job.playerId ≠ pid) where
  init := by
    rintro _ ⟨⟨tick, answers, players, rfl⟩, hnone⟩
    exact ⟨hnone, fun t ht => absurd ht List.not_mem_nil⟩
  step := by
    rintro st a st' hr ⟨hnone, hloaded⟩ - hstep
    constructor
    · rcases players_step hstep hr.of_startingWith.reachable with
        heq | ⟨t, s, row, -, -, -, hrow, heq⟩
      · rw [heq]
        exact hnone
      · rw [heq, Players.set, if_neg]
        · exact hnone
        · rintro rfl
          cases hnone.symm.trans hrow
    · intro t ht hload hsuccess heq
      rcases results_step hstep t ht with hold | ⟨t₀, ioError, -, hexec⟩
      · exact hloaded t hold hload hsuccess heq
      · refine exists_of_loaded hexec hload hsuccess ?_
        rw [heq]
        exact hnone

-- ============================================================================
-- The third coordinate
-- ============================================================================

/-- No update is executed on a row whose `pos_z` is not 0. -/
def FindsZeroZ (st : Server) : Event → Prop
  | .execute ioError => ioError = false → ∀ t u row, st.databaseThread = .executing t →
      t.job.data = .update u → st.players u.mPlayerId = some row → row.posZ = 0
  | _ => True

/-- The server on this table. -/
def systemOn (db : Players) : System Server Event :=
  system.startingWith (fun st => st.players = db)

theorem isInvariant_posZ (db : Players) :
    (systemOn db).IsInvariant FindsZeroZ
      (fun st => ∀ pid, (st.players pid).map PlayerRow.posZ = (db pid).map PlayerRow.posZ) where
  init := by
    rintro _ ⟨-, rfl⟩ pid
    rfl
  step := by
    intro st a st' hr h hok hstep pid
    rcases players_step hstep hr.of_startingWith.reachable with
      heq | ⟨t, s, row, rfl, hdb, hjob, hrow, heq⟩
    · rw [heq]
      exact h pid
    · have hzero : row.posZ = 0 := hok rfl t _ row hdb (congrArg _ hjob) hrow
      rw [heq, ← h pid, Players.set]
      by_cases hpid : pid = s.mPlayerId
      · rw [if_pos hpid, hpid, hrow]
        exact congrArg some hzero.symm
      · rw [if_neg hpid]

/-- **The third coordinate.**  In every run in which no update is executed on a
    row whose `pos_z` is not 0, every row keeps its `pos_z`, and there is a row
    for whom there was one. -/
theorem posZ_kept (db : Players) (st : Server) (h : (systemOn db).ReachableBy FindsZeroZ st)
    (pid : Int32) : (st.players pid).map PlayerRow.posZ = (db pid).map PlayerRow.posZ :=
  (isInvariant_posZ db).holds h pid

/-- A table that has only zeros there is never found otherwise. -/
theorem findsZeroZ_of_zeros {db : Players} (hzeros : ∀ pid row, db pid = some row → row.posZ = 0)
    (h : (systemOn db).Reachable st) : (systemOn db).ReachableBy FindsZeroZ st := by
  induction h with
  | init h => exact .init h
  | @step st₀ st₁ a hr _ hstep ih =>
      refine .step ih ?_ hstep
      have hkept := posZ_kept db st₀ ih
      cases a with
      | execute ioError =>
          intro _ t u row _ _ hrow
          have hsame := hkept u.mPlayerId
          rw [hrow] at hsame
          obtain ⟨row₀, hrow₀, hz⟩ := Option.map_eq_some_iff.mp hsame.symm
          rw [← hz]
          exact hzeros _ row₀ hrow₀
      | _ => trivial

/-- A login and the save that follows it at once. -/
def loginAndSave : List Event :=
  [.accept 5, .produceAccepted, .takeAccepted (fun _ => 0) (fun _ => 0), .flush,
    .recvCompletion ⟨0, 0, BUFSIZE⟩ false [8, 0, 1, 0, 7, 0, 0, 0], .read, .produceRequest,
    .consumeRequest, .execute false, .produceResult, .read, .timer 100, .task, .period 100,
    .dispatch, .produceRequest, .consumeRequest, .execute false]

theorem posZ_kept_zero :
    ∃ st, (systemOn onePlayer).ReachableBy FindsZeroZ st ∧
      (st.players 7).map PlayerRow.comment = some World.updatedTest.text ∧
      (st.players 7).map PlayerRow.posZ = some 0 := by
  have hrun : ((systemOn onePlayer).run (new 0 (fun _ => true) onePlayer) loginAndSave).map
      (fun st => (st.players 7).map PlayerRow.comment) = some (some World.updatedTest.text) := by
    decide +kernel
  obtain ⟨st, hst, hcomment⟩ := Option.map_eq_some_iff.mp hrun
  have hreach : (systemOn onePlayer).ReachableBy FindsZeroZ st := by
    refine findsZeroZ_of_zeros (fun pid row hrow => ?_)
      (.run (.init ⟨⟨_, _, _, rfl⟩, rfl⟩) hst)
    unfold onePlayer at hrow
    split at hrow
    · cases hrow
      rfl
    · cases hrow
  exact ⟨st, hreach, hcomment, posZ_kept onePlayer st hreach 7⟩

/-- The same player, at height 1. -/
def onePlayerUp : Players := fun pid =>
  if pid = 7 then some ⟨[65], 0, 0, 0x3FF0000000000000, []⟩ else none

/-- The save after a login puts the player on the ground. -/
theorem posZ_not_kept :
    ∃ db st pid, (systemOn db).Reachable st ∧
      (st.players pid).map PlayerRow.posZ ≠ (db pid).map PlayerRow.posZ := by
  have hrun : ((systemOn onePlayerUp).run (new 0 (fun _ => true) onePlayerUp) loginAndSave).map
      (fun st => (st.players 7).map PlayerRow.posZ) = some (some 0) := by
    decide +kernel
  obtain ⟨st, hst, hz⟩ := Option.map_eq_some_iff.mp hrun
  refine ⟨onePlayerUp, st, 7, .run (.init ⟨⟨_, _, _, rfl⟩, rfl⟩) hst, ?_⟩
  rw [hz]
  decide

/-- And so does every update that finds another height. -/
theorem posZ_lost {a : Event} (hr : system.Reachable st) (h : st.step a = some st')
    (hok : ¬ FindsZeroZ st a) :
    ∃ pid, (st.players pid).map PlayerRow.posZ ≠ (st'.players pid).map PlayerRow.posZ := by
  cases step_moves h with
  | execute ioError t job players hdb hexec =>
      have hissued := issued_of_executing hr hdb
      simp only [FindsZeroZ, not_forall] at hok
      obtain ⟨rfl, t', u, row, hdb', hdata, hrow, hz⟩ := hok
      rw [hdb] at hdb'
      cases hdb'
      generalize t.job = before at *
      cases hissued with
      | load => cases hdata
      | update s =>
          -- an update is all its data says
          cases hdata
          have hplayers : st.players.sqlUpdateTest (floatToDouble s.mPosX)
              (floatToDouble s.mPosY) 0 World.updatedTest.text s.mPlayerId = players := by
            obtain ⟨r, hr, heq⟩ := Option.map_eq_some_iff.mp hexec
            cases hr
            exact (Prod.mk.inj heq).2
          refine ⟨s.mPlayerId, ?_⟩
          show _ ≠ (players s.mPlayerId).map PlayerRow.posZ
          simp only [← hplayers, Players.sqlUpdateTest, hrow, Players.set, if_true,
            Option.map_some]
          exact fun heq => hz (Option.some.inj heq)
  | _ => exact absurd trivial hok

end Server
end EasyGameServer
