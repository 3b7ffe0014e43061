/-
  EasyGameServer.Server.Whereabouts

  Where positions come from.  A position goes round: a MOVE or the result of a
  load puts a session there, `OnDbUpdate` widens it and saves it, a load brings
  it back and `DatabaseJobDone` narrows it.  On the way no position is made up,
  but that the table has 0 for a NaN and −0: where a player is, on a session, in
  a job or in the table, is where the table had the player at the start or where
  a MOVE of a session of that player led.
-/

import EasyGameServer.Server.Armed
import EasyGameServer.Server.DatabaseJobs

namespace EasyGameServer

open Lib

namespace Server

-- ============================================================================
-- Where a player has been
-- ============================================================================

/-- Where a player may turn up: where the table had it, where a MOVE accepted
    from it led, or at such a place after a save and a load. -/
inductive Been (db : Players) (trace : List Note) (pid : Int32) : CFloat → CFloat → Prop
  | start (row : PlayerRow) (hrow : db pid = some row) :
      Been db trace pid (doubleToFloat row.posX) (doubleToFloat row.posY)
  | moved (l₁ l₂ : List Note) (i : SessionId) (bytes : List UInt8)
      (htrace : trace = l₁ ++ .parsed i .pktCsMove bytes :: l₂)
      (hplayer : (playOf l₁ i).player = some pid) (hclaimed : World.claimedPlayerId bytes = pid) :
      Been db trace pid (MoveRequest.ofBytes bytes).mPosX (MoveRequest.ofBytes bytes).mPosY
  | again (x y : CFloat) (h : Been db trace pid x y) :
      Been db trace pid (storedFloat x) (storedFloat y)

/-- Such a place, as an update job carries it. -/
def SavedAt (db : Players) (trace : List Note) (pid : Int32) (x y : CDouble) : Prop :=
  ∃ fx fy, Been db trace pid fx fy ∧ x = floatToDouble fx ∧ y = floatToDouble fy

/-- Such a place, as a row shows it once it has been saved. -/
def StoredAt (db : Players) (trace : List Note) (pid : Int32) (x y : CDouble) : Prop :=
  ∃ dx dy, SavedAt db trace pid dx dy ∧ x = storedDouble dx ∧ y = storedDouble dy

variable {db : Players} {st st' : Server}

theorem Been.append {trace : List Note} {pid : Int32} {x y : CFloat}
    (h : Been db trace pid x y) (ns : List Note) : Been db (trace ++ ns) pid x y := by
  induction h with
  | start row hrow => exact .start row hrow
  | moved l₁ l₂ i bytes htrace hplayer hclaimed =>
      refine .moved l₁ (l₂ ++ ns) i bytes ?_ hplayer hclaimed
      rw [htrace, List.append_assoc]
      rfl
  | again x y _ ih => exact .again x y ih

theorem SavedAt.append {trace : List Note} {pid : Int32} {x y : CDouble}
    (h : SavedAt db trace pid x y) (ns : List Note) : SavedAt db (trace ++ ns) pid x y := by
  obtain ⟨fx, fy, hbeen, hx, hy⟩ := h
  exact ⟨fx, fy, hbeen.append ns, hx, hy⟩

theorem StoredAt.append {trace : List Note} {pid : Int32} {x y : CDouble}
    (h : StoredAt db trace pid x y) (ns : List Note) : StoredAt db (trace ++ ns) pid x y := by
  obtain ⟨dx, dy, hsaved, hx, hy⟩ := h
  exact ⟨dx, dy, hsaved.append ns, hx, hy⟩

/-- What a load brings back is where the player was saved. -/
theorem StoredAt.loaded {trace : List Note} {pid : Int32} {x y : CDouble}
    (h : StoredAt db trace pid x y) :
    Been db trace pid (doubleToFloat x) (doubleToFloat y) := by
  obtain ⟨dx, dy, ⟨fx, fy, hbeen, rfl, rfl⟩, rfl, rfl⟩ := h
  rw [doubleToFloat_storedDouble, doubleToFloat_storedDouble]
  exact .again fx fy hbeen

-- ============================================================================
-- What is saved
-- ============================================================================

theorem player_loggedIn {w w' : World} {this : SessionId} {pid : Int32} {x y : CFloat}
    {name : CString maxNameLen} (h : World.LoggedIn w w' this pid x y name) :
    (playOf w'.trace this).player = some pid := by
  rw [playOf_loggedIn h]
  by_cases hsame : (playOf w.trace this).player = some pid
  · rw [if_neg (fun hc => hc.2 hsame)]
    exact hsame
  · rw [if_pos ⟨rfl, hsame⟩]

/-- A task pushes an update of the session it is queued for, at most. -/
theorem outbox_doTask {w w' : World} (h : w.doTask = some w') :
    w'.outbox = w.outbox ∨ ∃ (t : Ticket) (i : SessionId) (task : SessionTask),
      w'.outbox = w.outbox ++ [t] ∧ t.job = World.updateJob (w.sessions i) ∧
        0 < w.pendingTasks i task := by
  obtain ⟨e, hdue, rfl⟩ := World.doTask_eq h
  have hmem := (PriorityQueue.pop_perm (Scheduler.dueTop_eq_some_iff.mp hdue).1).mem_iff.mp
    List.mem_cons_self
  rcases World.runTask_cases w e with heq | ⟨after, heq⟩ | ⟨after, heq⟩
  · rw [heq]
    exact Or.inl rfl
  · rw [heq]
    exact Or.inl rfl
  · rw [heq]
    refine Or.inr ⟨_, e.mOwner, e.mTask, rfl, rfl, ?_⟩
    exact List.countP_pos_iff.mpr ⟨e, hmem, decide_eq_true ⟨rfl, rfl⟩⟩

/-- A new job in the outbox is a load, or it saves somebody's session. -/
theorem outbox_step {a : Event} (h : st.step a = some st') (hr : system.Reachable st) :
    ∀ t ∈ st'.world.outbox, t ∈ st.world.outbox ∨ t.job.isLoad = true ∨
      ∃ i s pid, t.job = World.updateJob s ∧ s.profile = (st'.world.sessions i).profile ∧
        (playOf st'.world.trace i).player = some pid := by
  intro t ht
  cases step_queueMoves h with
  | push a js st' _ _ _ _ houtbox _ _ hone _ _ =>
      rcases hone with rfl | ⟨rfl | rfl, -, -⟩
      · rw [houtbox, List.append_nil] at ht
        exact Or.inl ht
      · cases step_moves h with
        | readAgain this w _ _ hbody =>
            rcases World.silent_onReadBody hbody with hsilent | ⟨bytes, hpush, -⟩
            · exact Or.inl (hsilent.outbox ▸ ht)
            · rcases List.mem_append.mp (hpush.outbox ▸ ht) with hold | hnew
              · exact Or.inl hold
              · rw [List.mem_singleton.mp hnew]
                exact Or.inr (Or.inl rfl)
        | readLeave this w _ _ hbody =>
            have hsilent := (World.onReadBody_leave hbody).silent.trans
              (World.silent_recvExit w this)
            exact Or.inl (hsilent.outbox ▸ ht)
      · cases step_moves h with
        | taskRun w _ _ htask =>
            have hsteady := World.steady_doTask htask
            rcases outbox_doTask htask with hsame | ⟨t', i, task, hpush, hjob, hpos⟩
            · exact Or.inl (hsame ▸ ht)
            · rcases List.mem_append.mp (hpush ▸ ht) with hold | hnew
              · exact Or.inl hold
              · -- who has a task is logged on
                have hlogon : (st.world.sessions i).mLogon = true := by
                  by_contra hoff
                  rw [(isInvariant_armed.holds hr).idle i task (Bool.eq_false_of_not_eq_true hoff)]
                    at hpos
                  exact Nat.lt_irrefl 0 hpos
                have hknows := ((known_of_reachable hr).knows i).mLogon
                rw [show (st.world.sessions i).profile.mLogon = true from hlogon] at hknows
                obtain ⟨pid, hpid⟩ := Option.isSome_iff_exists.mp hknows.symm
                rw [List.mem_singleton.mp hnew]
                refine Or.inr (Or.inr ⟨i, _, pid, hjob, (hsteady.profile i).symm, ?_⟩)
                exact (congrArg (fun l => (playOf l i).player) hsteady.trace).trans hpid
        | taskNone => exact Or.inl ht
  | dispatch t₀ q w js _ _ hw _ _ _ _ =>
      rcases World.dispatchDatabaseJobResult_cases hw with
        rfl | ⟨client, login, -, -, -, -, -, rfl⟩
      · exact Or.inl ht
      · have hlogged := World.loggedIn_loginDone st.world client login.mPlayerId
          (doubleToFloat login.mPosX) (doubleToFloat login.mPosY) login.mPlayerName
        obtain ⟨w₁, hsilent, heq⟩ := World.loginDone_eq st.world client login.mPlayerId
          (doubleToFloat login.mPosX) (doubleToFloat login.mPosY) login.mPlayerName
        have hprofile := (World.steady_onDbUpdate w₁ client).profile client
        simp only [heq] at ht hlogged ⊢
        by_cases hconn : (w₁.sessions client).mConnected = true
        · have hout : (w₁.onDbUpdate client).outbox = st.world.outbox ++
              [⟨World.updateJob (w₁.sessions client), client, w₁.next⟩] := by
            rw [World.onDbUpdate, if_pos hconn]
            exact congrArg (· ++ _) hsilent.outbox
          rcases List.mem_append.mp (hout ▸ ht) with hold | hnew
          · exact Or.inl hold
          · rw [List.mem_singleton.mp hnew]
            exact Or.inr (Or.inr ⟨client, _, _, rfl, hprofile.symm, player_loggedIn hlogged⟩)
        · rw [World.onDbUpdate, if_neg hconn] at ht
          exact Or.inl (hsilent.outbox ▸ ht)
  | produceRequest t₀ rest q houtbox hq =>
      rw [houtbox]
      exact Or.inl (List.mem_cons_of_mem _ ht)
  | consumeRequest => exact Or.inl ht
  | execute => exact Or.inl ht
  | produceResult => exact Or.inl ht

/-- An unexecuted job was there before the step, or it is in the outbox now. -/
theorem unexecuted_new {a : Event} (h : st.step a = some st') :
    ∀ t ∈ st'.unexecuted, t ∈ st.unexecuted ∨ t ∈ st'.world.outbox := by
  intro t ht
  rcases List.mem_append.mp ht with hexec | hrest
  · -- what is being executed came from the request queue
    cases step_queueMoves h with
    | push a js st' _ _ _ hdb =>
        rw [hdb] at hexec
        exact Or.inl (List.mem_append_left _ hexec)
    | dispatch => exact Or.inl (List.mem_append_left _ hexec)
    | produceRequest => exact Or.inl (List.mem_append_left _ hexec)
    | consumeRequest t' q hdb hq =>
        refine Or.inl (List.mem_append_right _ (List.mem_append_left _ ?_))
        rw [ProducerConsumerQueue.contents_consume hq, List.mem_singleton.mp hexec]
        exact List.mem_cons_self
    | execute => cases hexec
    | produceResult => cases hexec
  · rcases List.mem_append.mp hrest with hqueue | hout
    · refine Or.inl (List.mem_append_right _ ?_)
      cases step_queueMoves h with
      | push a js st' _ hrequest =>
          rw [hrequest] at hqueue
          exact List.mem_append_left _ hqueue
      | dispatch => exact List.mem_append_left _ hqueue
      | produceRequest t' rest q houtbox hq =>
          rw [ProducerConsumerQueue.contents_produce hq] at hqueue
          rcases List.mem_append.mp hqueue with hqueue | hnew
          · exact List.mem_append_left _ hqueue
          · refine List.mem_append_right _ ?_
            rw [houtbox, List.mem_singleton.mp hnew]
            exact List.mem_cons_self
      | consumeRequest t' q hdb hq =>
          refine List.mem_append_left _ ?_
          rw [ProducerConsumerQueue.contents_consume hq]
          exact List.mem_cons_of_mem _ hqueue
      | execute => exact List.mem_append_left _ hqueue
      | produceResult => exact List.mem_append_left _ hqueue
    · exact Or.inr hout

-- ============================================================================
-- The table and the sessions
-- ============================================================================

/-- A load that succeeds shows a row. -/
theorem row_of_loaded {job job' : DatabaseJobContext} {players players' : Players}
    {ioError : Bool} {login : LoadPlayerDataContext}
    (h : job.execute players ioError = some (job', players')) (hsuccess : job'.mSuccess = true)
    (hdata : job'.data = .load login) :
    ∃ row, players login.mPlayerId = some row ∧ login.mPosX = row.posX ∧
      login.mPosY = row.posY := by
  obtain ⟨-, hplayer, hload⟩ := DatabaseJobContext.execute_spec h
  have hasked : job.isLoad = true := by
    rw [← hload, DatabaseJobContext.isLoad, hdata]
  have hpid : job'.playerId = login.mPlayerId := by
    rw [DatabaseJobContext.playerId, hdata]
  cases ioError with
  | true =>
      obtain ⟨r, hr, heq⟩ := Option.map_eq_some_iff.mp h
      cases hr
      cases heq
      cases hsuccess
  | false =>
      obtain ⟨c, hc⟩ : ∃ c, job.data = .load c := by
        unfold DatabaseJobContext.isLoad at hasked
        split at hasked
        next c hdata => exact ⟨c, hdata⟩
        next => cases hasked
      have hsame : c.mPlayerId = login.mPlayerId := by
        rw [← hpid, hplayer, DatabaseJobContext.playerId, hc]
      have hanswers := DatabaseJobContext.answers_execute hc h
      rw [Players.roster, hsame] at hanswers
      cases hrow : players login.mPlayerId with
      | none =>
          rw [hrow] at hanswers
          cases hsuccess.symm.trans hanswers
      | some row =>
          rw [hrow] at hanswers
          obtain ⟨-, loaded, hloaded, hshows⟩ := hanswers
          cases hdata.symm.trans hloaded
          exact ⟨row, rfl, hshows.x, hshows.y⟩

/-- No position is made up: not on a session, in a job, in a result, or in the
    table, which has the players it had, under their names. -/
structure Traced (db : Players) (st : Server) : Prop where
  sessions : ∀ i pid, (playOf st.world.trace i).player = some pid →
    Been db st.world.trace pid (st.world.sessions i).mPosX (st.world.sessions i).mPosY
  updates : ∀ t ∈ st.unexecuted, ∀ u, t.job.data = .update u →
    SavedAt db st.world.trace u.mPlayerId u.mPosX u.mPosY
  names : ∀ pid, (st.players pid).map PlayerRow.name = (db pid).map PlayerRow.name
  rows : ∀ pid row, st.players pid = some row →
    db pid = some row ∨ StoredAt db st.world.trace pid row.posX row.posY
  results : ∀ t ∈ st.results, t.job.mSuccess = true → ∀ login, t.job.data = .load login →
    Been db st.world.trace login.mPlayerId (doubleToFloat login.mPosX)
      (doubleToFloat login.mPosY)

namespace Traced

/-- A row shows a place of its player. -/
theorem been_of_row (h : Traced db st) {pid : Int32} {row : PlayerRow}
    (hrow : st.players pid = some row) :
    Been db st.world.trace pid (doubleToFloat row.posX) (doubleToFloat row.posY) := by
  rcases h.rows pid row hrow with hstart | hsaved
  · exact .start row hstart
  · exact hsaved.loaded

theorem sessions_step {a : Event} (h : Traced db st) (hknown : Known st.world)
    (hstep : st.step a = some st') (i : SessionId) (pid : Int32)
    (hpid : (playOf st'.world.trace i).player = some pid) :
    Been db st'.world.trace pid (st'.world.sessions i).mPosX (st'.world.sessions i).mPosY := by
  -- a session that is who and where it was
  have hstays : (st'.world.sessions i).profile = (st.world.sessions i).profile →
      (playOf st.world.trace i).player = some pid →
      Been db st'.world.trace pid (st'.world.sessions i).mPosX (st'.world.sessions i).mPosY := by
    intro hprofile hwas
    obtain ⟨ns, htrace⟩ := trace_step hstep
    have hx : (st'.world.sessions i).mPosX = (st.world.sessions i).mPosX :=
      congrArg Profile.mPosX hprofile
    have hy : (st'.world.sessions i).mPosY = (st.world.sessions i).mPosY :=
      congrArg Profile.mPosY hprofile
    rw [hx, hy, htrace]
    exact (h.sessions i pid hwas).append ns
  cases step_plays hstep with
  | steady _ hsteady =>
      rw [hsteady.trace] at hpid
      exact hstays (hsteady.profile i) hpid
  | take sendMem recvMem hprofile htrace =>
      have hnow := hprofile i
      rw [htrace] at hpid
      split at hnow
      next hnew =>
        rw [hknown.unused i (Nat.le_of_eq hnew.symm)] at hpid
        cases hpid
      next => exact hstays hnow hpid
  | read this r bytes hthread hreads hheard =>
      have hnow := hheard.profile i
      rw [player_heard hheard] at hpid
      split at hnow
      next hmoved =>
        obtain ⟨rfl, rfl, hclaimed⟩ := hmoved
        obtain ⟨ns, htrace, -⟩ := hheard.trace
        have hx : (st'.world.sessions i).mPosX = _ := congrArg Profile.mPosX hnow
        have hy : (st'.world.sessions i).mPosY = _ := congrArg Profile.mPosY hnow
        have hown : (st.world.sessions i).mPlayerId = pid := by
          have hknows := (hknown.knows i).mPlayerId
          rw [hpid] at hknows
          exact hknows
        rw [hx, hy]
        exact .moved _ ns i bytes htrace hpid (hclaimed.trans hown)
      next => exact hstays hnow hpid
  | dispatch t q client login hq hsuccess hdata hreg hconn hdone =>
      have hlogged := World.loggedIn_of_eq hdone
      have hnow := hlogged.profile i
      split at hnow
      next heq =>
        subst heq
        have hmem : t ∈ st.results := by
          rw [Server.results, ProducerConsumerQueue.contents_consume hq]
          exact List.mem_cons_self
        have hx : (st'.world.sessions i).mPosX = _ := congrArg Profile.mPosX hnow
        have hy : (st'.world.sessions i).mPosY = _ := congrArg Profile.mPosY hnow
        cases hpid.symm.trans (player_loggedIn hlogged)
        rw [hx, hy, hlogged.trace]
        exact (h.results t hmem hsuccess login hdata).append _
      next hother =>
        refine hstays hnow ?_
        rw [playOf_loggedIn hlogged, if_neg (fun hc => hother hc.1)] at hpid
        exact hpid

theorem step {a : Event} (h : Traced db st) (hr : system.Reachable st)
    (hstep : st.step a = some st') : Traced db st' := by
  obtain ⟨ns, htrace⟩ := trace_step hstep
  have hsessions := h.sessions_step (known_of_reachable hr) hstep
  refine ⟨hsessions, ?_, ?_, ?_, ?_⟩
  · intro t ht u hdata
    have hold : t ∈ st.unexecuted →
        SavedAt db st'.world.trace u.mPlayerId u.mPosX u.mPosY := fun hmem => by
      rw [htrace]
      exact (h.updates t hmem u hdata).append ns
    rcases unexecuted_new hstep t ht with hmem | hout
    · exact hold hmem
    · rcases outbox_step hstep hr t hout with hmem | hload | ⟨i, s, pid, hjob, hprofile, hpid⟩
      · exact hold (List.mem_append_right _ (List.mem_append_right _ hmem))
      · rw [DatabaseJobContext.isLoad, hdata] at hload
        cases hload
      · rw [hjob] at hdata
        cases hdata
        have hknows := ((known_of_reachable (hr.step trivial hstep)).knows i).mPlayerId
        rw [hpid, ← hprofile] at hknows
        have hown : s.mPlayerId = pid := hknows
        have hbeen := hsessions i pid hpid
        have hx : s.mPosX = (st'.world.sessions i).mPosX := congrArg Profile.mPosX hprofile
        have hy : s.mPosY = (st'.world.sessions i).mPosY := congrArg Profile.mPosY hprofile
        rw [← hx, ← hy, ← hown] at hbeen
        exact ⟨_, _, hbeen, rfl, rfl⟩
  · intro pid
    rcases players_step hstep hr with heq | ⟨t, s, row, -, -, -, hrow, heq⟩
    · rw [heq]
      exact h.names pid
    · rw [heq, ← h.names pid, Players.set]
      by_cases hpid : pid = s.mPlayerId
      · rw [if_pos hpid, hpid, hrow]
        rfl
      · rw [if_neg hpid]
  · intro pid row hrow
    have hold : st.players pid = some row →
        db pid = some row ∨ StoredAt db st'.world.trace pid row.posX row.posY := by
      intro hwas
      rw [htrace]
      exact (h.rows pid row hwas).imp_right (fun hstored => hstored.append ns)
    rcases players_step hstep hr with heq | ⟨t, s, row₁, rfl, hdb, hjob, -, heq⟩
    · exact hold (heq ▸ hrow)
    · rw [heq, Players.set] at hrow
      by_cases hpid : pid = s.mPlayerId
      · subst hpid
        rw [if_pos rfl] at hrow
        cases hrow
        have hmem : t ∈ st.unexecuted := by
          rw [unexecuted, hdb]
          exact List.mem_append_left _ (List.mem_singleton.mpr rfl)
        rw [htrace]
        have hsaved := h.updates t hmem _ (congrArg DatabaseJobContext.data hjob)
        exact Or.inr ⟨_, _, hsaved.append ns, rfl, rfl⟩
      · rw [if_neg hpid] at hrow
        exact hold hrow
  · intro t ht hsuccess login hdata
    rw [htrace]
    rcases results_step hstep t ht with hmem | ⟨t₀, ioError, -, hexec⟩
    · exact (h.results t hmem hsuccess login hdata).append ns
    · obtain ⟨row, hrow, hx, hy⟩ := row_of_loaded hexec hsuccess hdata
      rw [hx, hy]
      exact (h.been_of_row hrow).append ns

end Traced

theorem isInvariant_traced (db : Players) :
    (systemOn db).IsInvariant System.always (Traced db) where
  init := by
    rintro _ ⟨⟨tick, answers, players, rfl⟩, rfl⟩
    refine ⟨fun i pid hpid => ?_, fun t ht => ?_, fun _ => rfl, fun _ _ => Or.inl,
      fun t ht => ?_⟩
    · cases hpid
    · cases ht
    · cases ht
  step _ _ _ hr h _ hstep := h.step hr.of_startingWith hstep

/-- **Positions.**  In every reachable state of a server started on a table:
    who is logged in is where the table had the player or a MOVE accepted from
    it led (a coordinate that was a NaN or −0 may have become 0 on the way), and
    the table has the players it had, under their names, each with the position
    it had or one saved from such a place. -/
theorem positions_traced (db : Players) (st : Server) (h : (systemOn db).Reachable st) :
    (∀ i pid, (playOf st.world.trace i).player = some pid →
      Been db st.world.trace pid (st.world.sessions i).mPosX (st.world.sessions i).mPosY) ∧
    (∀ pid, (st.players pid).map PlayerRow.name = (db pid).map PlayerRow.name) ∧
    ∀ pid row, st.players pid = some row →
      db pid = some row ∨ StoredAt db st.world.trace pid row.posX row.posY := by
  have htraced := (isInvariant_traced db).holds h
  exact ⟨htraced.sessions, htraced.names, htraced.rows⟩

/-- A player logs in, moves to (1, 2) and is saved there. -/
def moveAndSave : List Event :=
  loginEvents ++ [.recvCompletion ⟨0, 0, BUFSIZE⟩ false moveBytes, .read, .read, .timer 200000,
    .task, .task, .produceRequest, .consumeRequest, .execute false]

theorem positions_traced_save :
    ∃ st, (systemOn onePlayer).Reachable st ∧
      StoredAt onePlayer st.world.trace 7 0x3FF0000000000000 0x4000000000000000 := by
  have hrun : ((systemOn onePlayer).run (new 0 (fun _ => true) onePlayer) moveAndSave).map
      (fun st => (st.players 7).map (fun row => (row.name, row.posX, row.posY, row.comment)))
        = some (some ([65], 0x3FF0000000000000, 0x4000000000000000, World.updatedTest.text)) := by
    decide +kernel
  obtain ⟨st, hst, hall⟩ := Option.map_eq_some_iff.mp hrun
  obtain ⟨row, hrow, heq⟩ := Option.map_eq_some_iff.mp hall
  simp only [Prod.mk.injEq] at heq
  obtain ⟨-, hx, hy, -⟩ := heq
  have hinit : (systemOn onePlayer).Reachable (new 0 (fun _ => true) onePlayer) :=
    .init ⟨⟨_, _, _, rfl⟩, rfl⟩
  have hreach : (systemOn onePlayer).Reachable st := hinit.run hst
  refine ⟨st, hreach, ?_⟩
  rcases (positions_traced onePlayer st hreach).2.2 7 row hrow with hstart | hsaved
  · -- that is not where the table had it
    cases hstart
    cases hx
  · rwa [hx, hy] at hsaved

end Server
end EasyGameServer
