/-
  EasyGameServer.World.Garbage

  What `CollectGarbageSessions` does when every session is registered under
  its own socket: it takes exactly the registered sessions that are neither
  connected nor counted, each once, and unregisters no other.
-/

import EasyGameServer.PacketHandling

namespace EasyGameServer

open Lib

namespace World

/-- Every registered session is registered under its own socket. -/
def Keyed (w : World) : Prop :=
  ∀ (k : SOCKET) (i : SessionId), w.mClientList[k]? = some i → (w.sessions i).mSocket = k

/-- The sessions in `ds` are deleted, and those only. -/
structure Collected (w w' : World) (ds : List SessionId) : Prop where
  sessions : w'.sessions = w.sessions
  next : w'.next = w.next
  os : w'.os = w.os
  scheduler : w'.scheduler = w.scheduler
  outbox : w'.outbox = w.outbox
  pushed : w'.pushed = w.pushed
  trace : w'.trace = w.trace
  deleted : w'.deleted = ds ++ w.deleted
  mClientList : ∀ k : SOCKET, w'.mClientList[k]? =
    if ∃ i ∈ ds, (w.sessions i).mSocket = k then none else w.mClientList[k]?
  nodup : ds.Nodup
  garbage : ∀ i ∈ ds, isGarbage (w.sessions i) = true ∧ ∃ k : SOCKET, w.mClientList[k]? = some i
  all : ∀ i, isGarbage (w.sessions i) = true → (∃ k : SOCKET, w.mClientList[k]? = some i) → i ∈ ds

variable {w w' : World}

/-- Deleting sessions one by one only touches the client list and the list of
    the deleted. -/
theorem foldl_deleteClient (ds : List SessionId) (w : World) :
    ds.foldl deleteClient w =
      { w with
        mClientList := (ds.foldl deleteClient w).mClientList
        deleted := ds.reverse ++ w.deleted } := by
  induction ds generalizing w with
  | nil => rfl
  | cons i ds ih =>
      rw [List.foldl_cons, ih (w.deleteClient i), List.reverse_cons, List.append_assoc]
      rfl

theorem mClientList_foldl_deleteClient (ds : List SessionId) (w : World) (k : SOCKET) :
    (ds.foldl deleteClient w).mClientList[k]? =
      if ∃ i ∈ ds, (w.sessions i).mSocket = k then none else w.mClientList[k]? := by
  induction ds generalizing w with
  | nil => simp
  | cons i ds ih =>
      have hsame : (w.deleteClient i).sessions = w.sessions := rfl
      rw [List.foldl_cons, ih (w.deleteClient i), hsame]
      by_cases hlater : ∃ j ∈ ds, (w.sessions j).mSocket = k
      · obtain ⟨j, hj, hsock⟩ := hlater
        rw [if_pos ⟨j, hj, hsock⟩, if_pos ⟨j, List.mem_cons_of_mem _ hj, hsock⟩]
      · rw [if_neg hlater, deleteClient, Std.TreeMap.getElem?_erase]
        simp only [compare_eq_iff_eq]
        by_cases hself : (w.sessions i).mSocket = k
        · rw [if_pos hself, if_pos ⟨i, List.mem_cons_self, hself⟩]
        · rw [if_neg hself, if_neg]
          rintro ⟨j, hj, hsock⟩
          rcases List.mem_cons.mp hj with rfl | hj
          · exact hself hsock
          · exact hlater ⟨j, hj, hsock⟩

theorem mem_registered_iff {i : SessionId} :
    i ∈ w.mClientList.toList.map Prod.snd ↔ ∃ k : SOCKET, w.mClientList[k]? = some i := by
  rw [List.mem_map]
  constructor
  · rintro ⟨⟨k, j⟩, hmem, rfl⟩
    exact ⟨k, Std.TreeMap.mem_toList_iff_getElem?_eq_some.mp hmem⟩
  · rintro ⟨k, hk⟩
    exact ⟨(k, i), Std.TreeMap.mem_toList_iff_getElem?_eq_some.mpr hk, rfl⟩

/-- No session is registered twice. -/
theorem nodup_registered (h : w.Keyed) : (w.mClientList.toList.map Prod.snd).Nodup := by
  rw [List.Nodup, List.pairwise_map]
  refine Std.TreeMap.distinct_keys_toList.imp_of_mem ?_
  rintro ⟨k, i⟩ ⟨k', i'⟩ hmem hmem' hne heq
  have hk := h k i (Std.TreeMap.mem_toList_iff_getElem?_eq_some.mp hmem)
  have hk' := h k' i' (Std.TreeMap.mem_toList_iff_getElem?_eq_some.mp hmem')
  rw [show i = i' from heq] at hk
  exact hne (compare_eq_iff_eq.mpr (hk.symm.trans hk'))

theorem collectGarbageSessions_spec (h : w.Keyed) :
    ∃ ds, Collected w w.collectGarbageSessions ds := by
  let ds := (w.mClientList.toList.map Prod.snd).filter (fun i => isGarbage (w.sessions i))
  have hmem : ∀ i, i ∈ ds ↔
      (∃ k : SOCKET, w.mClientList[k]? = some i) ∧ isGarbage (w.sessions i) = true := by
    intro i
    rw [List.mem_filter, mem_registered_iff]
  have hfold : w.collectGarbageSessions = ds.foldl deleteClient w := rfl
  have heq := foldl_deleteClient ds w
  refine ⟨ds.reverse, ?_, ?_, ?_, ?_, ?_, ?_, ?_, ?_, ?_, ?_, ?_, ?_⟩
  · rw [hfold, heq]
  · rw [hfold, heq]
  · rw [hfold, heq]
  · rw [hfold, heq]
  · rw [hfold, heq]
  · rw [hfold, heq]
  · rw [hfold, heq]
  · rw [hfold, heq]
  · intro k
    rw [hfold, mClientList_foldl_deleteClient]
    simp only [List.mem_reverse]
  · exact (List.reverse_perm ds).nodup_iff.mpr ((nodup_registered h).filter _)
  · intro i hi
    obtain ⟨hreg, hgarbage⟩ := (hmem i).mp (List.mem_reverse.mp hi)
    exact ⟨hgarbage, hreg⟩
  · intro i hgarbage hreg
    exact List.mem_reverse.mpr ((hmem i).mpr ⟨hreg, hgarbage⟩)

/-- A timer pass collects, or changes nothing but the tick it remembers. -/
theorem onPeriodWork_spec (h : w.Keyed) (currTick : UInt32) :
    ∃ ds, Collected w (w.onPeriodWork currTick) ds ∨ w.onPeriodWork currTick = w := by
  unfold onPeriodWork
  split
  · obtain ⟨ds, hds⟩ := collectGarbageSessions_spec h
    exact ⟨ds, Or.inl ⟨hds.sessions, hds.next, hds.os, hds.scheduler, hds.outbox, hds.pushed,
      hds.trace, hds.deleted, hds.mClientList, hds.nodup, hds.garbage, hds.all⟩⟩
  · exact ⟨[], Or.inr rfl⟩

/-- What stays registered under a key was there before, and is no garbage. -/
theorem Collected.mClientList_eq_some_iff {ds : List SessionId} (h : w.Keyed)
    (hc : Collected w w' ds) (k : SOCKET) (i : SessionId) :
    w'.mClientList[k]? = some i ↔ w.mClientList[k]? = some i ∧ i ∉ ds := by
  rw [hc.mClientList]
  constructor
  · intro hi
    split at hi
    · cases hi
    next hno => exact ⟨hi, fun hmem => hno ⟨i, hmem, h k i hi⟩⟩
  · rintro ⟨hi, hno⟩
    rw [if_neg]
    · exact hi
    · rintro ⟨j, hj, hsock⟩
      -- the deleted session is registered under the same key, so it is this one
      obtain ⟨-, k', hk'⟩ := hc.garbage j hj
      have hsame : k' = k := (h k' j hk').symm.trans hsock
      rw [hsame, hi] at hk'
      cases hk'
      exact hno hj

end World
end EasyGameServer
