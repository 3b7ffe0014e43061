/-
  EasyGameServer.World.Jobs

  Which operations push jobs and log sessions in.  Everything is `Silent` but
  a login packet, which pushes a load job for the session it was read from; a
  periodic update, which pushes an update; and a result, which logs in.
-/

import EasyGameServer.World.Evolves
import EasyGameServer.World.Garbage

namespace EasyGameServer

open Lib

namespace World

/-- A login packet for this player was read from this session. -/
def Asked (trace : List Note) (this : SessionId) (pid : Int32) : Prop :=
  ∃ bytes, Note.parsed this .pktCsLogin bytes ∈ trace ∧
    (LoginRequest.ofBytes bytes).mPlayerId = pid

/-- The history goes on without a login. -/
def GoesOn (trace trace' : List Note) : Prop :=
  ∃ ns, trace' = trace ++ ns ∧ ∀ i pid, Note.loginDone i pid ∉ ns

theorem GoesOn.refl (trace : List Note) : GoesOn trace trace :=
  ⟨[], (List.append_nil _).symm, nofun⟩

theorem GoesOn.trans {t t' t'' : List Note} (h : GoesOn t t') (h' : GoesOn t' t'') :
    GoesOn t t'' := by
  obtain ⟨ns, rfl, hno⟩ := h
  obtain ⟨ns', rfl, hno'⟩ := h'
  refine ⟨ns ++ ns', List.append_assoc .., fun i pid hmem => ?_⟩
  rcases List.mem_append.mp hmem with hmem | hmem
  · exact hno i pid hmem
  · exact hno' i pid hmem

/-- No job is pushed and nobody logged in. -/
structure Silent (w w' : World) : Prop where
  outbox : w'.outbox = w.outbox
  pushed : w'.pushed = w.pushed
  trace : GoesOn w.trace w'.trace

/-- One job is pushed, and perhaps a packet has been read before. -/
structure Pushes (w w' : World) (t : Ticket) : Prop where
  outbox : w'.outbox = w.outbox ++ [t]
  pushed : w'.pushed = w.pushed ++ [t]
  trace : GoesOn w.trace w'.trace

variable {w w' w'' : World} {this : SessionId}

namespace Silent

theorem of_eq (houtbox : w'.outbox = w.outbox) (hpushed : w'.pushed = w.pushed)
    (htrace : w'.trace = w.trace) : Silent w w' :=
  ⟨houtbox, hpushed, htrace ▸ .refl _⟩

theorem refl (w : World) : Silent w w := of_eq rfl rfl rfl

theorem trans (h : Silent w w') (h' : Silent w' w'') : Silent w w'' :=
  ⟨h'.outbox.trans h.outbox, h'.pushed.trans h.pushed, h.trace.trans h'.trace⟩

end Silent

theorem Calm.silent (h : w.Calm w') : Silent w w' := by
  obtain ⟨ns, hns, hall⟩ := h.trace
  refine ⟨h.outbox, h.pushed, ns, hns, fun i pid hmem => ?_⟩
  obtain ⟨i', pkt, heq⟩ := hall _ hmem
  cases heq

theorem silent_put (w : World) (this : SessionId) (r : ClientSession × Os) :
    Silent w (w.put this r) :=
  .of_eq rfl rfl rfl

theorem silent_foldl {α : Type _} {f : World → α → World} (h : ∀ w a, Silent w (f w a))
    (as : List α) (w : World) : Silent w (as.foldl f w) := by
  induction as generalizing w with
  | nil => exact .refl w
  | cons a as ih => exact (h w a).trans (ih (f w a))

theorem silent_flushClientSend (w : World) : Silent w w.flushClientSend := by
  unfold flushClientSend
  refine silent_foldl (fun w' it => ?_) _ w
  exact silent_put w' it.2 _

theorem silent_recvCompletion (w : World) (post : RecvPost) (dwError : Bool)
    (data : List UInt8) : Silent w (w.recvCompletion post dwError data).2 := by
  rcases recvCompletion_cases w post dwError data with ⟨-, heq⟩ | ⟨-, -, heq⟩ | ⟨-, -, heq⟩
  · rw [heq]
    exact silent_put w _ _
  · rw [heq]
    exact (silent_put w _ _).trans (calm_disconnect _ _).silent
  · rw [heq]
    exact silent_put w _ _

theorem silent_recvExit (w : World) (this : SessionId) : Silent w (w.recvExit this) := by
  rcases recvExit_cases w this with ⟨-, hcalm⟩ | ⟨-, k, heq⟩ | ⟨-, k, hcalm⟩
  · exact hcalm.silent
  · rw [heq]
    exact silent_put w _ _
  · exact (silent_put w _ _).trans hcalm.silent

theorem silent_acceptClient (w : World) (sock : SOCKET) (sendMem recvMem : Nat → UInt8) :
    Silent w (w.acceptClient sock sendMem recvMem) := by
  rw [acceptClient_eq]
  refine Silent.trans ?_ (silent_recvExit _ _)
  exact .of_eq rfl rfl rfl

theorem silent_onPeriodWork (w : World) (currTick : UInt32) :
    Silent w (w.onPeriodWork currTick) := by
  unfold onPeriodWork
  split
  · have heq := foldl_deleteClient
      ((w.mClientList.toList.map Prod.snd).filter (fun i => isGarbage (w.sessions i))) w
    have houtbox := congrArg outbox heq
    have hpushed := congrArg pushed heq
    have htrace := congrArg trace heq
    exact .of_eq houtbox hpushed htrace
  · exact .refl w

/-- An iteration of `OnRead` is silent, or reads a login request. -/
theorem silent_onReadBody (h : onReadBody this w = .again w') :
    Silent w w' ∨ ∃ bytes,
      Pushes w w' ⟨loadJob (w.sessions this).mSocket (.ofBytes bytes), this, w.next⟩ ∧
      Note.parsed this .pktCsLogin bytes ∈ w'.trace := by
  have hconsumed : ∀ type bytes rest,
      GoesOn w.trace (w.consumed this type bytes rest).trace := by
    intro type bytes rest
    refine ⟨[.parsed this type bytes], rfl, fun i pid hmem => ?_⟩
    exact nomatch List.mem_singleton.mp hmem
  cases consumes_of_onReadBody h with
  | calm hcalm => exact Or.inl hcalm.silent
  | login bytes rest =>
      refine Or.inr ⟨bytes, ⟨rfl, rfl, hconsumed _ bytes rest⟩, ?_⟩
      exact List.mem_append_right _ (List.mem_singleton.mpr rfl)
  | other r bytes rest _ hcalm =>
      refine Or.inl (Silent.trans ?_ hcalm.silent)
      exact ⟨rfl, rfl, hconsumed _ bytes rest⟩

/-- A task pushes an update at most. -/
theorem silent_doTask (h : w.doTask = some w') :
    Silent w w' ∨ ∃ t s, t.job = updateJob s ∧ Pushes w w' t := by
  obtain ⟨e, -, rfl⟩ := doTask_eq h
  rcases runTask_cases w e with heq | ⟨after, heq⟩ | ⟨after, heq⟩
  · rw [heq]
    exact Or.inl (.of_eq rfl rfl rfl)
  · rw [heq]
    exact Or.inl (.of_eq rfl rfl rfl)
  · rw [heq]
    exact Or.inr ⟨⟨updateJob (w.sessions e.mOwner), e.mOwner, w.next⟩, _, rfl, rfl, rfl, .refl _⟩

theorem silent_onTick (w : World) (this : SessionId) : Silent w (w.onTick this) := by
  unfold onTick
  split
  · exact .of_eq rfl rfl rfl
  · exact .refl w

/-- Up to the first periodic update, a login pushes nothing. -/
theorem loginDone_eq (w : World) (this : SessionId) (pid : Int32) (x y : CFloat)
    (name : CString maxNameLen) :
    ∃ w₁, Silent (w.note (.loginDone this pid)) w₁ ∧
      w.loginDone this pid x y name = w₁.onDbUpdate this := by
  refine ⟨_, ?_, rfl⟩
  refine Silent.trans ?_ (silent_onTick _ this)
  refine Silent.trans ?_ (silent_put _ this _)
  refine Silent.trans ?_ (calm_sendRequest _ this _).silent
  exact silent_put _ this _

/-- A login writes itself into the history, and pushes the first update at
    most. -/
theorem loginDone_cases (w : World) (this : SessionId) (pid : Int32) (x y : CFloat)
    (name : CString maxNameLen) :
    Silent (w.note (.loginDone this pid)) (w.loginDone this pid x y name) ∨
      ∃ t s, t.job = updateJob s ∧
        Pushes (w.note (.loginDone this pid)) (w.loginDone this pid x y name) t := by
  obtain ⟨w₁, hsilent, heq⟩ := loginDone_eq w this pid x y name
  rw [heq, onDbUpdate]
  split
  · refine Or.inr ⟨⟨updateJob (w₁.sessions this), this, w₁.next⟩, _, rfl, ?_, ?_, hsilent.trace⟩
    · rw [← hsilent.outbox]
      rfl
    · rw [← hsilent.pushed]
      rfl
  · exact Or.inl hsilent

end World
end EasyGameServer
