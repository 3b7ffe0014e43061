/-
  EasyGameServer.DatabaseJobManager.Loads

  What a load returns.  Serial execution without I/O errors takes the roster of
  the initial table through the jobs in the order of their pushes, so a popped
  load shows its player as the jobs pushed before it have left them.
-/

import EasyGameServer.DatabaseJobManager.Order
import EasyGameServer.Roster

namespace EasyGameServer

open Lib

namespace Serial

variable {players db : Players} {asked answered : List (JobId × DatabaseJobContext)}
  {results : List (JobId × Bool)}

/-- The table after the jobs is the roster after the jobs. -/
theorem roster (h : Serial (· = false) players asked answered results db) :
    db.roster = players.roster.after (asked.map Prod.snd) := by
  induction h with
  | nil => rfl
  | snoc id h hio hexec ih =>
      subst hio
      rw [List.map_append, (DatabaseJobContext.executes_of_onExecute hexec).roster, ih]
      exact (Roster.after_concat ..).symm

theorem namesFit (h : Serial (· = false) players asked answered results db)
    (hfit : players.NamesFit) : db.NamesFit := by
  induction h with
  | nil => exact hfit
  | snoc id h hio hexec ih =>
      subst hio
      exact (DatabaseJobContext.executes_of_onExecute hexec).namesFit ih

end Serial

namespace DatabaseJobManager

variable {st : DatabaseJobManager} {players : Players}

/-- A job's name is its place among the pushes. -/
theorem Ordered.length_before {allowed : Bool → Prop} (h : st.Ordered allowed players)
    {id : JobId} {job : DatabaseJobContext} {before after : List (JobId × DatabaseJobContext)}
    (hpushed : st.pushed = before ++ (id, job) :: after) : before.length = id := by
  have hnamed := congrArg (fun l => l[before.length]?) h.named
  simp only [hpushed, List.map_append, List.map_cons, List.append_assoc] at hnamed
  rw [List.getElem?_append_right (by simp)] at hnamed
  rw [List.length_map, Nat.sub_self, List.cons_append, List.getElem?_cons_zero] at hnamed
  obtain ⟨hlt, hget⟩ := List.getElem?_eq_some_iff.mp hnamed.symm
  rwa [List.getElem_range] at hget

/-- No execution meets an I/O error. -/
abbrev NoIoError : DatabaseJobManager → Event → Prop := Meets (· = false)

/-- A job that has been executed was pushed, and was executed over a table that
    shows what the jobs pushed before it had left. -/
theorem exists_pushed (hr : (system players).ReachableBy NoIoError st) {id : JobId}
    {job' : DatabaseJobContext} (hmem : (id, job') ∈ st.popped ++ objects st.jobs st.ready) :
    ∃ before job after db db', st.pushed = before ++ (id, job) :: after ∧
      db.roster = players.roster.after (before.map Prod.snd) ∧
      job.execute db false = some (job', db') := by
  obtain ⟨asked, hasked, hserial⟩ := (ordered_of_reachable hr).serial
  obtain ⟨before, job, after, answered, results, db, ioError, db', heq, hbefore, rfl, hexec⟩ :=
    hserial.mem hmem
  refine ⟨before, job, after ++ objects st.jobs st.waiting, db, db', ?_, hbefore.roster, hexec⟩
  rw [hasked, heq, List.append_assoc]
  rfl

/-- A popped load of a player fails exactly when the jobs pushed before it leave
    no such player, and otherwise shows the name and the position they leave;
    jobs about other players make no difference.  The database thread never
    ends the process. -/
theorem load_answered (players : Players) (hfit : players.NamesFit) {st : DatabaseJobManager}
    (hr : (system players).ReachableBy NoIoError st) :
    (∀ id job job' login before after, st.pushed = before ++ (id, job) :: after →
      job.data = .load login → (id, job') ∈ st.popped →
        job'.Answers (players.roster.after (before.map Prod.snd) login.mPlayerId) ∧
        players.roster.after (before.map Prod.snd) login.mPlayerId
          = players.roster.after ((before.map Prod.snd).filter
              (fun j => j.playerId = login.mPlayerId)) login.mPlayerId) ∧
      ∀ id, st.databaseThread = .executing id → ∃ st', st.step (.execute false) = some st' := by
  have h := ordered_of_reachable hr
  refine ⟨fun id job job' login before after hpushed hload hpopped => ⟨?_, ?_⟩, fun id hdb => ?_⟩
  · obtain ⟨before₀, job₀, after₀, db, db', hpushed₀, hroster, hexec⟩ :=
      exists_pushed hr (List.mem_append_left _ hpopped)
    -- the job's name is its place, so the two splittings are the same
    have hlength := (h.length_before hpushed).trans (h.length_before hpushed₀).symm
    obtain ⟨rfl, hcons⟩ := List.append_inj (hpushed.symm.trans hpushed₀) hlength
    obtain ⟨hjob, -⟩ := List.cons.inj hcons
    cases hjob
    rw [← hroster]
    exact DatabaseJobContext.answers_execute hload hexec
  · exact (Roster.after_filter ..).symm
  · obtain ⟨asked, -, hserial⟩ := h.serial
    obtain ⟨⟨ok, job, db⟩, hexec⟩ := Option.isSome_iff_exists.mp
      (DatabaseJobContext.isSome_onExecute (hserial.namesFit hfit) (st.jobs id))
    rw [← DatabaseJobContext.callOnExecute_eq] at hexec
    exact ⟨_, by simp only [step, executeJob, hdb, hexec]; rfl⟩

/-- The player that has been created is loaded. -/
theorem load_answered_created :
    ∃ st job, (system (fun _ => none)).ReachableBy NoIoError st ∧ (1, job) ∈ st.popped ∧
      job.Answers (some ⟨[], 5, 0, 0⟩) := by
  obtain ⟨st, job, hrun, hpushed, hpopped, -⟩ := exists_created
  have hr : (system (fun _ => none)).ReachableBy NoIoError st := by
    refine System.ReachableBy.run (.init rfl) (fun _ a ha e he => ?_) hrun
    subst he
    simpa [createAndLoad] using ha
  have hfit : Players.NamesFit (fun _ => none) := by
    intro pid row hrow
    cases hrow
  have hanswers := (load_answered _ hfit hr).1 1 _ job _ [_] [] hpushed rfl hpopped
  exact ⟨st, job, hr, hpopped, hanswers.1⟩

end DatabaseJobManager
end EasyGameServer
