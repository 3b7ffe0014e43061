/-
  EasyGameServer.World.Fixes

  What the I/O of sessions and the timer leave as it is.  A function of a
  session that looks neither at its connection nor at its references nor at its
  receive buffer is `Blind` to them, and nothing but sending, logging in and a
  handler's own stores changes it for anybody.
-/

import EasyGameServer.World.Evolves
import EasyGameServer.World.Garbage

namespace EasyGameServer

open Lib

/-- `f` does not look at what receiving, disconnecting and counting change. -/
structure ClientSession.Blind {α : Type _} (f : ClientSession → α) : Prop where
  mConnected : ∀ s b, f { s with mConnected := b } = f s
  mRefCount : ∀ s n, f { s with mRefCount := n } = f s
  mRecvBuffer : ∀ s buf, f { s with mRecvBuffer := buf } = f s

theorem ClientSession.blind_mSendBuffer : Blind mSendBuffer :=
  ⟨fun _ _ => rfl, fun _ _ => rfl, fun _ _ => rfl⟩

namespace World

/-- `f` stays as it is for every session. -/
def Fixes {α : Type _} (f : ClientSession → α) (w w' : World) : Prop :=
  ∀ i, f (w'.sessions i) = f (w.sessions i)

variable {α : Type _} {f : ClientSession → α} {w w' w'' : World} {this : SessionId}

theorem Fixes.of_eq (h : w'.sessions = w.sessions) : Fixes f w w' := fun i => by rw [h]

theorem Fixes.refl (w : World) : Fixes f w w := .of_eq rfl

theorem Fixes.trans (h : Fixes f w w') (h' : Fixes f w' w'') : Fixes f w w'' :=
  fun i => (h' i).trans (h i)

theorem fixes_put {r : ClientSession × Os} (h : f r.1 = f (w.sessions this)) :
    Fixes f w (w.put this r) := by
  intro i
  by_cases hi : i = this
  · rw [hi, sessions_put_self]
    exact h
  · rw [sessions_put_of_ne w r hi]

theorem fixes_foldl {β : Type _} {g : World → β → World} (h : ∀ w b, Fixes f w (g w b))
    (bs : List β) (w : World) : Fixes f w (bs.foldl g w) := by
  induction bs generalizing w with
  | nil => exact .refl w
  | cons b bs ih => exact (h w b).trans (ih (g w b))

section Blind

variable (hf : ClientSession.Blind f)
include hf

theorem blind_disconnect (s : ClientSession) (os : Os) : f (s.disconnect os).1 = f s := by
  rcases s.disconnect_cases os with ⟨k, heq⟩ | ⟨-, k, heq⟩
  · rw [heq]
  · rw [heq]
    exact hf.mConnected s false

theorem fixes_disconnect (w : World) (this : SessionId) : Fixes f w (w.disconnect this) :=
  fixes_put (blind_disconnect hf _ _)

theorem fixes_modify_recv (w : World) (this : SessionId) (buf : CircularBuffer) :
    Fixes f w (w.modify this (fun s => { s with mRecvBuffer := buf })) :=
  fixes_put (hf.mRecvBuffer _ buf)

theorem fixes_consumed (w : World) (this : SessionId) (type : PacketTypes)
    (bytes : List UInt8) (rest : CircularBuffer) :
    Fixes f w (w.consumed this type bytes rest) := fixes_modify_recv hf w this rest

theorem fixes_flushClientSend (w : World) : Fixes f w w.flushClientSend := by
  refine fixes_foldl (fun w it => fixes_put ?_) _ w
  rcases (w.sessions it.2).flushClientSend_cases it.2 w.os with
    ⟨-, heq⟩ | ⟨-, -, k, heq⟩ | ⟨-, -, k, heq⟩
  · rw [heq]
  · rw [heq]
    exact hf.mRefCount _ _
  · rw [heq]
    exact blind_disconnect hf _ _

theorem fixes_recvExit (w : World) (this : SessionId) : Fixes f w (w.recvExit this) := by
  have hput : f ((w.sessions this).postRecv this w.os).2.1 = f (w.sessions this) := by
    rcases (w.sessions this).postRecv_cases this w.os with ⟨-, heq⟩ | ⟨-, k, heq⟩ | ⟨-, k, heq⟩
    · rw [heq]
    · rw [heq]
      exact (hf.mRefCount _ _).trans (hf.mRecvBuffer _ _)
    · rw [heq]
      exact hf.mRecvBuffer _ _
  unfold recvExit
  extract_lets r
  split
  · exact fixes_put hput
  · exact (fixes_put hput).trans (fixes_disconnect hf _ this)

theorem fixes_recvCompletion (w : World) (post : RecvPost) (dwError : Bool)
    (data : List UInt8) : Fixes f w (w.recvCompletion post dwError data).2 := by
  have hput : f ((w.sessions post.owner).arrive post.buf data).decRefCount
      = f (w.sessions post.owner) := (hf.mRefCount _ _).trans (hf.mRecvBuffer _ _)
  rcases recvCompletion_cases w post dwError data with ⟨-, heq⟩ | ⟨-, -, heq⟩ | ⟨-, -, heq⟩
  · rw [heq]
    exact fixes_put hput
  · rw [heq]
    exact (fixes_put hput).trans (fixes_disconnect hf _ _)
  · rw [heq]
    exact fixes_put ((hf.mRecvBuffer _ _).trans hput)

theorem fixes_callFuncAfter (w : World) (after : UInt32) (this : SessionId)
    (memfunc : SessionTask) : Fixes f w (w.callFuncAfter after this memfunc) := by
  have hcount : Fixes f w (w.modify this ClientSession.incRefCount) :=
    fixes_put (hf.mRefCount _ _)
  exact hcount

theorem fixes_onTick (w : World) (this : SessionId) : Fixes f w (w.onTick this) := by
  unfold onTick
  split
  · exact fixes_callFuncAfter hf w _ this _
  · exact .refl w

theorem fixes_onDbUpdate (w : World) (this : SessionId) : Fixes f w (w.onDbUpdate this) := by
  unfold onDbUpdate
  split
  · have hpush : Fixes f w (w.pushDatabaseJobRequest this (updateJob (w.sessions this))) :=
      .of_eq rfl
    exact hpush.trans (fixes_callFuncAfter hf _ _ this _)
  · exact .refl w

theorem fixes_doTask (h : w.doTask = some w') : Fixes f w w' := by
  obtain ⟨e, -, rfl⟩ := doTask_eq h
  have hrun : Fixes f w (w.runTask e) := by
    unfold runTask
    split
    · exact fixes_onTick hf w _
    · exact fixes_onDbUpdate hf w _
  have hcount : Fixes f (w.runTask e)
      ((w.runTask e).modify e.mOwner ClientSession.decRefCount) := fixes_put (hf.mRefCount _ _)
  exact hrun.trans hcount

theorem fixes_onReadBody_leave (h : onReadBody this w = .leave (some w')) : Fixes f w w' := by
  rcases eq_of_onReadBody_leave h with rfl | rfl
  · exact .refl _
  · exact fixes_disconnect hf w this

end Blind

theorem fixes_onPeriodWork (w : World) (currTick : UInt32) :
    Fixes f w (w.onPeriodWork currTick) := by
  unfold onPeriodWork
  split
  · have heq := foldl_deleteClient
      ((w.mClientList.toList.map Prod.snd).filter (fun i => isGarbage (w.sessions i))) w
    have hsessions := congrArg sessions heq
    exact .of_eq hsessions
  · exact .refl w

end World
end EasyGameServer
