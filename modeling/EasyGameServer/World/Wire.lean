/-
  EasyGameServer.World.Wire

  Who hands bytes to the system.  Only `FlushClientSend` calls `WSASend`, and
  only the completion of a send takes one off the system's list; whatever else
  the client thread does is `Unsent`.  A flush goes once through the client
  list, so to one session it does what its own `SendFlush` does.
-/

import EasyGameServer.World.Enqueue

namespace EasyGameServer

open Lib

-- ============================================================================
-- The sends of one session
-- ============================================================================

namespace Os

/-- The outstanding sends of a session. -/
def sendsOf (os : Os) (i : SessionId) : List SendPost :=
  os.sends.filter (fun p => p.owner = i)

/-- What a session's calls of `WSASend` handed over, those that failed apart. -/
def transmitted (os : Os) (i : SessionId) : List UInt8 :=
  (os.wire.filter (fun c => c.owner = i ∧ c.ok = true)).flatMap SendCall.data

/-- Nothing is handed over, and no send completes. -/
structure Unsent (os os' : Os) : Prop where
  wire : os'.wire = os.wire
  sends : os'.sends = os.sends

variable {os os' os'' : Os} {i j : SessionId}

theorem Unsent.refl (os : Os) : os.Unsent os := ⟨rfl, rfl⟩

theorem Unsent.trans (h : os.Unsent os') (h' : os'.Unsent os'') : os.Unsent os'' :=
  ⟨h'.wire.trans h.wire, h'.sends.trans h.sends⟩

theorem Unsent.transmitted (h : os.Unsent os') (i : SessionId) :
    os'.transmitted i = os.transmitted i := by
  rw [Os.transmitted, h.wire, Os.transmitted]

theorem Unsent.sendsOf (h : os.Unsent os') (i : SessionId) : os'.sendsOf i = os.sendsOf i := by
  rw [Os.sendsOf, h.sends, Os.sendsOf]

theorem transmitted_append {call : SendCall} (hwire : os'.wire = os.wire ++ [call]) :
    os'.transmitted i =
      os.transmitted i ++ if call.owner = i ∧ call.ok = true then call.data else [] := by
  rw [transmitted, hwire, List.filter_append, List.flatMap_append, transmitted]
  congr 1
  by_cases h : call.owner = i ∧ call.ok = true
  · rw [if_pos h, List.filter_singleton, decide_eq_true h]
    exact List.append_nil _
  · rw [if_neg h, List.filter_singleton, decide_eq_false h]
    rfl

theorem sendsOf_append {post : SendPost} (hsends : os'.sends = os.sends ++ [post]) :
    os'.sendsOf i = os.sendsOf i ++ if post.owner = i then [post] else [] := by
  rw [sendsOf, hsends, List.filter_append, sendsOf]
  congr 1
  by_cases h : post.owner = i
  · rw [if_pos h, List.filter_singleton, decide_eq_true h]
    rfl
  · rw [if_neg h, List.filter_singleton, decide_eq_false h]
    rfl

theorem sendsOf_erase {post : SendPost} (hsends : os'.sends = os.sends.erase post) :
    os'.sendsOf i = (os.sendsOf i).erase post := by
  rw [sendsOf, hsends, sendsOf, List.erase_filter]

end Os

namespace ClientSession

theorem unsent_disconnect (s : ClientSession) (os : Os) : os.Unsent (s.disconnect os).2 :=
  ⟨wire_disconnect s os, (fades_disconnect s os).sends⟩

theorem unsent_sendRequest (s : ClientSession) (pkt : OutPacket) (os : Os) :
    os.Unsent (s.sendRequest pkt os).2.2 := by
  rcases s.sendRequest_cases pkt os with ⟨-, -, heq⟩ | ⟨-, -, heq⟩ | ⟨-, heq⟩
  · rw [heq]
    exact .refl os
  · rw [heq]
    exact unsent_disconnect _ os
  · rw [heq]
    exact .refl os

/-- A flush would reach `WSASend`. -/
def Ready (s : ClientSession) : Prop :=
  s.mConnected = true ∧ s.mSendBuffer.getContiguousBytes ≠ 0

variable {s : ClientSession} {os : Os}

theorem flushClientSend_idle (h : ¬ s.Ready) (this : SessionId) :
    s.flushClientSend this os = (s, os) := by
  rcases s.flushClientSend_cases this os with ⟨-, heq⟩ | ⟨hc, hne, -⟩ | ⟨hc, hne, -⟩
  · exact heq
  · exact absurd ⟨hc, hne⟩ h
  · exact absurd ⟨hc, hne⟩ h

theorem flushClientSend_posts (h : s.Ready) (hask : os.answers os.asked = true)
    (this : SessionId) :
    s.flushClientSend this os = (s.incRefCount,
      { os with
        asked := os.asked + 1
        sends := os.sends ++ [⟨this, s.pending.length⟩]
        wire := os.wire ++ [⟨this, s.pending, true⟩] }) := by
  simp only [flushClientSend, sendFlush, h.1, h.2, Os.wsaSend, Os.ask, hask, pending, if_true,
    if_false]

theorem flushClientSend_fails (h : s.Ready) (hask : os.answers os.asked = false)
    (this : SessionId) :
    s.flushClientSend this os = s.disconnect
      { os with
        asked := os.asked + 1
        wire := os.wire ++ [⟨this, s.pending, false⟩] } := by
  simp only [flushClientSend, sendFlush, h.1, h.2, Os.wsaSend, Os.ask, hask, pending, if_true,
    if_false, Bool.false_eq_true]

/-- `Disconnect` asks once, and ends the connection unless the answer is no. -/
theorem disconnect_asks (h : s.mConnected = true) :
    (s.disconnect os).2.asked = os.asked + 1 ∧
      ((s.disconnect os).1.mConnected = false ∨ os.answers os.asked = false) := by
  cases hask : os.answers os.asked with
  | true => simp [disconnect, h, Os.ask, hask, Os.closesocket]
  | false => simp [disconnect, h, Os.ask, hask]

end ClientSession

-- ============================================================================
-- What sends nothing
-- ============================================================================

namespace World

variable {w w' : World} {this : SessionId}

theorem unsent_foldl {α : Type _} {f : World → α → World}
    (h : ∀ (w : World) a, w.os.Unsent (f w a).os) (as : List α) (w : World) :
    w.os.Unsent (as.foldl f w).os := by
  induction as generalizing w with
  | nil => exact .refl _
  | cons a as ih => exact (h w a).trans (ih (f w a))

theorem unsent_relay (w : World) (this : SessionId) (pkt : OutPacket) :
    w.os.Unsent (w.relay this pkt).os := by
  have hsend : w.os.Unsent (w.sendRequest this pkt).2.os :=
    ClientSession.unsent_sendRequest _ pkt w.os
  have hcast : w.os.Unsent (w.broadcast this pkt).2.os := by
    unfold broadcast
    extract_lets r
    split
    · split
      · refine hsend.trans (unsent_foldl (fun w it => ?_) _ (r.2.note _))
        split
        · exact .refl _
        · exact ClientSession.unsent_sendRequest _ pkt w.os
      · exact hsend
    · exact hsend
  unfold relay
  split
  · exact hcast
  · exact hcast.trans (ClientSession.unsent_disconnect _ _)

theorem unsent_onReadBody (h : onReadBody this w = .again w') : w.os.Unsent w'.os := by
  cases readsAgain_of_onReadBody h with
  | hungUp => exact ClientSession.unsent_disconnect _ w.os
  | short => exact .refl _
  | read r bytes rest _ _ hread hrun =>
      -- storing the packet and the position leaves the system alone
      cases handled_of_read hread hrun with
      | login hr => exact .refl _
      | refused hr hpid => exact .refl _
      | chat hr hpid pkt => exact unsent_relay (w.consumed this r.type bytes rest) this _
      | move hr hpid =>
          exact unsent_relay ((w.consumed this r.type bytes rest).modify this _) this _

theorem unsent_onReadBody_leave (h : onReadBody this w = .leave (some w')) :
    w.os.Unsent w'.os := by
  rcases eq_of_onReadBody_leave h with rfl | rfl
  · exact .refl _
  · exact ClientSession.unsent_disconnect _ w.os

theorem unsent_recvExit (w : World) (this : SessionId) : w.os.Unsent (w.recvExit this).os := by
  have hpost : w.os.Unsent ((w.sessions this).postRecv this w.os).2.2 := by
    rcases (w.sessions this).postRecv_cases this w.os with ⟨-, heq⟩ | ⟨-, k, heq⟩ | ⟨-, k, heq⟩
    · rw [heq]
      exact .refl _
    · rw [heq]
      exact ⟨rfl, rfl⟩
    · rw [heq]
      exact ⟨rfl, rfl⟩
  unfold recvExit
  extract_lets r
  split
  · exact hpost
  · exact hpost.trans (ClientSession.unsent_disconnect _ _)

theorem unsent_recvCompletion (w : World) (post : RecvPost) (dwError : Bool)
    (data : List UInt8) : w.os.Unsent (w.recvCompletion post dwError data).2.os := by
  have hcompleted : w.os.Unsent { w.os with recvs := w.os.recvs.erase post } := ⟨rfl, rfl⟩
  rcases recvCompletion_cases w post dwError data with ⟨-, heq⟩ | ⟨-, -, heq⟩ | ⟨-, -, heq⟩
  · rw [heq]
    exact hcompleted
  · rw [heq]
    exact hcompleted.trans (ClientSession.unsent_disconnect _ _)
  · rw [heq]
    exact hcompleted

theorem os_onTick (w : World) (this : SessionId) : (w.onTick this).os = w.os := by
  unfold onTick
  split
  · rfl
  · rfl

theorem os_onDbUpdate (w : World) (this : SessionId) : (w.onDbUpdate this).os = w.os := by
  unfold onDbUpdate
  split
  · rfl
  · rfl

theorem os_doTask (h : w.doTask = some w') : w'.os = w.os := by
  obtain ⟨e, -, rfl⟩ := doTask_eq h
  show (w.runTask e).os = w.os
  unfold runTask
  split
  · exact os_onTick w _
  · exact os_onDbUpdate w _

theorem unsent_loginDone (w : World) (this : SessionId) (pid : Int32) (x y : CFloat)
    (name : CString maxNameLen) : w.os.Unsent (w.loginDone this pid x y name).os := by
  unfold loginDone
  extract_lets w₁ outPacket w₂ w₃
  rw [os_onDbUpdate, os_onTick]
  exact ClientSession.unsent_sendRequest _ _ w₁.os

theorem os_onPeriodWork (w : World) (currTick : UInt32) : (w.onPeriodWork currTick).os = w.os := by
  unfold onPeriodWork
  split
  · have heq := foldl_deleteClient
      ((w.mClientList.toList.map Prod.snd).filter (fun i => isGarbage (w.sessions i))) w
    have hos := congrArg os heq
    exact hos
  · rfl

-- ============================================================================
-- A flush
-- ============================================================================

/-- What `FlushClientSend` does for one entry of the client list. -/
def flushOne (w : World) (it : SOCKET × SessionId) : World :=
  w.put it.2 ((w.sessions it.2).flushClientSend it.2 w.os)

/-- Nothing of a session changes. -/
structure Untouched (i : SessionId) (w w' : World) : Prop where
  session : w'.sessions i = w.sessions i
  transmitted : w'.os.transmitted i = w.os.transmitted i
  sendsOf : w'.os.sendsOf i = w.os.sendsOf i

/-- Two calls have failed, one right after the other. -/
def FailTwice (os os' : Os) : Prop :=
  ∃ n, os.asked ≤ n ∧ n + 1 < os'.asked ∧ os.answers n = false ∧ os.answers (n + 1) = false

/-- What a flush does to a session of the client list: nothing when there is
    nothing to send; else its pending bytes are handed over, or the call fails
    and the session is hung up, unless that fails too. -/
inductive Flushed (i : SessionId) (w w' : World) : Prop
  | idle (hready : ¬ (w.sessions i).Ready) (hsame : Untouched i w w')
  | posted (hready : (w.sessions i).Ready) (hconn : (w'.sessions i).mConnected = true)
      (hwire : w'.os.transmitted i = w.os.transmitted i ++ (w.sessions i).pending)
      (hsends : w'.os.sendsOf i = w.os.sendsOf i ++ [⟨i, (w.sessions i).pending.length⟩])
  | failed (hready : (w.sessions i).Ready) (hwire : w'.os.transmitted i = w.os.transmitted i)
      (hsends : w'.os.sendsOf i = w.os.sendsOf i)
      (hhung : (w'.sessions i).mConnected = false ∨ FailTwice w.os w'.os)

theorem Untouched.refl (i : SessionId) (w : World) : Untouched i w w := ⟨rfl, rfl, rfl⟩

theorem Untouched.trans {i : SessionId} {w'' : World} (h : Untouched i w w')
    (h' : Untouched i w' w'') : Untouched i w w'' :=
  ⟨h'.session.trans h.session, h'.transmitted.trans h.transmitted, h'.sendsOf.trans h.sendsOf⟩

theorem asks_sendFlush (s : ClientSession) (this : SessionId) (os : Os) :
    os.Asks (s.sendFlush this os).2.2 := by
  unfold ClientSession.sendFlush Os.wsaSend
  split
  · split
    · exact .refl _
    · dsimp only
      split
      · exact ⟨rfl, Nat.le_succ _⟩
      · exact ⟨rfl, Nat.le_succ _⟩
  · exact .refl _

theorem asks_flushOne (w : World) (it : SOCKET × SessionId) : w.os.Asks (flushOne w it).os := by
  show w.os.Asks ((w.sessions it.2).flushClientSend it.2 w.os).2
  unfold ClientSession.flushClientSend
  extract_lets flushed
  have hflushed : w.os.Asks flushed.2.2 := asks_sendFlush _ it.2 w.os
  split
  · exact hflushed
  · exact hflushed.trans (ClientSession.asks_disconnect _ _)

theorem asks_foldl_flushOne (its : List (SOCKET × SessionId)) (w : World) :
    w.os.Asks (its.foldl flushOne w).os := by
  induction its generalizing w with
  | nil => exact .refl _
  | cons it its ih => exact (asks_flushOne w it).trans (ih (flushOne w it))

/-- One call of `SendFlush`. -/
theorem flushed_flushOne (w : World) (it : SOCKET × SessionId) :
    Flushed it.2 w (flushOne w it) := by
  have hself : (flushOne w it).sessions it.2 = _ := sessions_put_self w it.2 _
  have hos : (flushOne w it).os = ((w.sessions it.2).flushClientSend it.2 w.os).2 := rfl
  by_cases hready : (w.sessions it.2).Ready
  · cases hask : w.os.answers w.os.asked with
    | true =>
        rw [ClientSession.flushClientSend_posts hready hask] at hself hos
        refine .posted hready ?_ ?_ ?_
        · rw [hself]
          exact hready.1
        · rw [hos]
          exact (Os.transmitted_append rfl).trans (congrArg _ (if_pos ⟨rfl, rfl⟩))
        · rw [hos]
          exact (Os.sendsOf_append rfl).trans (congrArg _ (if_pos rfl))
    | false =>
        have hfails := ClientSession.flushClientSend_fails hready hask it.2
        rw [hfails] at hself hos
        have hasks : ((w.sessions it.2).disconnect { w.os with
            asked := w.os.asked + 1
            wire := w.os.wire ++ [⟨it.2, (w.sessions it.2).pending, false⟩] }).2.asked
              = w.os.asked + 1 + 1 ∧ _ := ClientSession.disconnect_asks hready.1
        obtain ⟨hasked, hhung⟩ := hasks
        have hunsent := ClientSession.unsent_disconnect (w.sessions it.2)
          { w.os with
            asked := w.os.asked + 1
            wire := w.os.wire ++ [⟨it.2, (w.sessions it.2).pending, false⟩] }
        rw [← hos] at hasked hunsent
        have htwice : (flushOne w it).os.asked = w.os.asked + 1 + 1 := hasked
        refine .failed hready ?_ (hunsent.sendsOf it.2) ?_
        · refine (hunsent.transmitted it.2).trans ((Os.transmitted_append rfl).trans ?_)
          rw [if_neg (fun h => Bool.false_ne_true h.2), List.append_nil]
        · rw [hself]
          refine hhung.imp_right (fun hlinger => ⟨w.os.asked, Nat.le_refl _, ?_, hask, hlinger⟩)
          omega
  · rw [ClientSession.flushClientSend_idle hready] at hself hos
    exact .idle hready ⟨hself, by rw [hos], by rw [hos]⟩

theorem untouched_flushOne (w : World) {it : SOCKET × SessionId} {i : SessionId}
    (hi : i ≠ it.2) : Untouched i w (flushOne w it) := by
  have hsession : (flushOne w it).sessions i = w.sessions i := sessions_put_of_ne w _ hi
  have hos : (flushOne w it).os = ((w.sessions it.2).flushClientSend it.2 w.os).2 := rfl
  have hne : ¬ it.2 = i := fun h => hi h.symm
  rcases (w.sessions it.2).flushClientSend_cases it.2 w.os with
    ⟨-, heq⟩ | ⟨-, -, k, heq⟩ | ⟨-, -, k, heq⟩
  · rw [heq] at hos
    exact ⟨hsession, by rw [hos], by rw [hos]⟩
  · rw [heq] at hos
    refine ⟨hsession, ?_, ?_⟩
    · rw [hos]
      refine (Os.transmitted_append rfl).trans ?_
      rw [if_neg (fun h => hne h.1), List.append_nil]
    · rw [hos]
      refine (Os.sendsOf_append rfl).trans ?_
      rw [if_neg hne, List.append_nil]
  · have hunsent := ClientSession.unsent_disconnect (w.sessions it.2)
      { w.os with
        asked := k
        wire := w.os.wire ++ [⟨it.2, (w.sessions it.2).pending, false⟩] }
    rw [← heq, ← hos] at hunsent
    refine ⟨hsession, (hunsent.transmitted i).trans ((Os.transmitted_append rfl).trans ?_),
      hunsent.sendsOf i⟩
    rw [if_neg (fun h => hne h.1), List.append_nil]

theorem untouched_foldl_flushOne {its : List (SOCKET × SessionId)} {i : SessionId}
    (hi : i ∉ its.map Prod.snd) (w : World) : Untouched i w (its.foldl flushOne w) := by
  induction its generalizing w with
  | nil => exact .refl i w
  | cons it its ih =>
      obtain ⟨hne, hrest⟩ := not_or.mp (mt List.mem_cons.mpr hi)
      exact (untouched_flushOne w hne).trans (ih hrest (flushOne w it))

theorem Flushed.congr {i : SessionId} {w₁ w₂ : World} (h : Flushed i w₁ w₂)
    (hbefore : Untouched i w w₁) (hafter : Untouched i w₂ w') (hasks : w.os.Asks w₁.os)
    (hasks' : w₂.os.Asks w'.os) : Flushed i w w' := by
  have hs := hbefore.session
  cases h with
  | idle hready hsame =>
      rw [hs] at hready
      exact .idle hready (hbefore.trans (hsame.trans hafter))
  | posted hready hconn hwire hsends =>
      rw [hs] at hready hwire hsends
      refine .posted hready ?_ ?_ ?_
      · rw [hafter.session]
        exact hconn
      · rw [hafter.transmitted, hwire, hbefore.transmitted]
      · rw [hafter.sendsOf, hsends, hbefore.sendsOf]
  | failed hready hwire hsends hhung =>
      rw [hs] at hready
      refine .failed hready ?_ ?_ ?_
      · rw [hafter.transmitted, hwire, hbefore.transmitted]
      · rw [hafter.sendsOf, hsends, hbefore.sendsOf]
      · rw [hafter.session]
        refine hhung.imp_right ?_
        rintro ⟨n, hle, hlt, hfirst, hsecond⟩
        rw [hasks.answers] at hfirst hsecond
        exact ⟨n, Nat.le_trans hasks.asked hle, Nat.lt_of_lt_of_le hlt hasks'.asked, hfirst,
          hsecond⟩

/-- **A flush.**  Each session of the client list is flushed once, and nobody
    else is touched. -/
theorem flushed_flushClientSend (hkeyed : w.Keyed) (i : SessionId) :
    (w.IsListed i → Flushed i w w.flushClientSend) ∧
      (¬ w.IsListed i → Untouched i w w.flushClientSend) := by
  have hnodup := nodup_registered hkeyed
  have hfold : w.flushClientSend = w.mClientList.toList.foldl flushOne w := rfl
  rw [hfold]
  constructor
  · intro hlisted
    obtain ⟨it, hit, rfl⟩ := List.mem_map.mp (mem_registered_iff.mpr hlisted)
    obtain ⟨its₁, its₂, hsplit⟩ := List.append_of_mem hit
    rw [hsplit, List.map_append, List.map_cons] at hnodup
    obtain ⟨-, hlast, hdisjoint⟩ := List.nodup_append.mp hnodup
    have hfirst : it.2 ∉ its₁.map Prod.snd := fun hmem =>
      hdisjoint _ hmem _ List.mem_cons_self rfl
    rw [hsplit, List.foldl_append, List.foldl_cons]
    exact (flushed_flushOne _ it).congr (untouched_foldl_flushOne hfirst w)
      (untouched_foldl_flushOne (List.nodup_cons.mp hlast).1 _) (asks_foldl_flushOne its₁ w)
      (asks_foldl_flushOne its₂ _)
  · intro hnot
    exact untouched_foldl_flushOne (fun hmem => hnot (mem_registered_iff.mp hmem)) w

-- ============================================================================
-- The end of a send
-- ============================================================================

/-- It is off the system's list, and that is all. -/
theorem unsent_sendCompletion (w : World) (post : SendPost) (dwError : Bool)
    (cbTransferred : Nat) :
    ({ w.os with sends := w.os.sends.erase post } : Os).Unsent
      (w.sendCompletion post dwError cbTransferred).os := by
  have hos : (w.sendCompletion post dwError cbTransferred).os
      = ((w.sessions post.owner).sendCompletion dwError cbTransferred
        { w.os with sends := w.os.sends.erase post }).2 := rfl
  rw [hos]
  rcases (w.sessions post.owner).sendCompletion_cases dwError cbTransferred
    { w.os with sends := w.os.sends.erase post } with heq | heq | heq
  · rw [heq]
    exact .refl _
  · rw [heq]
    exact ClientSession.unsent_disconnect _ _
  · rw [heq]
    exact .refl _

/-- To everybody else it is nothing. -/
theorem untouched_sendCompletion (w : World) {post : SendPost} {i : SessionId}
    (howner : post.owner ≠ i) (dwError : Bool) (cbTransferred : Nat) :
    Untouched i w (w.sendCompletion post dwError cbTransferred) := by
  have hunsent := unsent_sendCompletion w post dwError cbTransferred
  refine ⟨sessions_put_of_ne w _ (fun h => howner h.symm), hunsent.transmitted i, ?_⟩
  rw [hunsent.sendsOf, Os.sendsOf_erase rfl, List.erase_of_not_mem]
  exact fun hmem => howner (of_decide_eq_true (List.mem_filter.mp hmem).2)

end World
end EasyGameServer
