/-
  EasyGameServer.World.Enqueue

  What a relayed packet does to send buffers.  A packet is offered to a session
  by `SendRequest`: whole, or not at all.  `Broadcast` offers it to its sender
  first and, if the sender takes it, once to every other registered session.
  Whoever has no room is disconnected, provided `Disconnect` can set the linger
  option.
-/

import EasyGameServer.World.Fixes
import EasyGameServer.PacketHandling.Disconnected

namespace EasyGameServer

open Lib

-- ============================================================================
-- Calls of the system
-- ============================================================================

/-- Some calls later. -/
structure Os.Asks (os os' : Os) : Prop where
  answers : os'.answers = os.answers
  asked : os.asked ≤ os'.asked

/-- All calls in between have succeeded. -/
def Os.Granted (os os' : Os) : Prop := ∀ n, os.asked ≤ n → n < os'.asked → os.answers n = true

namespace Os

theorem Asks.refl (os : Os) : os.Asks os := ⟨rfl, Nat.le_refl _⟩

theorem Asks.trans {os os' os'' : Os} (h : os.Asks os') (h' : os'.Asks os'') : os.Asks os'' :=
  ⟨h'.answers.trans h.answers, Nat.le_trans h.asked h'.asked⟩

/-- If all calls have succeeded, so have those up to some point and those from
    there on. -/
theorem Granted.split {os os' os'' : Os} (h : os.Granted os'') (h₁ : os.Asks os')
    (h₂ : os'.Asks os'') : os.Granted os' ∧ os'.Granted os'' := by
  have hle := h₁.asked
  have hle' := h₂.asked
  constructor
  · intro n hn hlt
    exact h n hn (by omega)
  · intro n hn hlt
    rw [h₁.answers]
    exact h n (by omega) hlt

end Os

namespace ClientSession

theorem asks_disconnect (s : ClientSession) (os : Os) : os.Asks (s.disconnect os).2 := by
  unfold disconnect
  split
  · split
    · exact ⟨rfl, Nat.le_succ _⟩
    · exact ⟨rfl, Nat.le_succ _⟩
  · exact .refl os

theorem asks_sendRequest (s : ClientSession) (pkt : OutPacket) (os : Os) :
    os.Asks (s.sendRequest pkt os).2.2 := by
  rcases s.sendRequest_cases pkt os with ⟨-, -, heq⟩ | ⟨-, -, heq⟩ | ⟨-, heq⟩
  · rw [heq]
    exact .refl os
  · rw [heq]
    exact asks_disconnect _ os
  · rw [heq]
    exact .refl os

/-- When its call succeeds, `Disconnect` disconnects. -/
theorem mConnected_disconnect_of_granted {s : ClientSession} {os : Os}
    (h : os.Granted (s.disconnect os).2) : (s.disconnect os).1.mConnected = false := by
  unfold disconnect at h ⊢
  by_cases hc : s.mConnected = true
  · rw [if_pos hc] at h ⊢
    have hask : os.ask.1 = true := by
      refine h os.asked (Nat.le_refl _) ?_
      split
      · exact Nat.lt_succ_self _
      · exact Nat.lt_succ_self _
    rw [if_pos hask]
  · rw [if_neg hc]
    exact eq_false_of_ne_true hc

-- ============================================================================
-- One session
-- ============================================================================

/-- Does the session take this packet into its send buffer? -/
def accepts (s : ClientSession) (pkt : OutPacket) : Bool :=
  s.mConnected && decide (shortToSize pkt.mSize ≤ s.mSendBuffer.getFreeSpaceSize.1)

/-- A packet has been offered: taken whole, or refused and the session hung up. -/
structure Offered (pkt : OutPacket) (s s' : ClientSession) : Prop where
  mConnected : s'.mConnected = s.accepts pkt
  contents : s'.mSendBuffer.contents
    = s.mSendBuffer.contents ++ if s.accepts pkt then pkt.toBytes else []

theorem valid_sendRequest {s : ClientSession} (hv : s.mSendBuffer.Valid) (pkt : OutPacket)
    (os : Os) : (s.sendRequest pkt os).2.1.mSendBuffer.Valid := by
  have hwrite := CircularBuffer.write_spec hv pkt.toBytes (shortToSize pkt.mSize)
    (Nat.le_of_eq pkt.length_toBytes.symm)
  rcases s.sendRequest_cases pkt os with ⟨-, -, heq⟩ | ⟨-, -, heq⟩ | ⟨-, heq⟩
  · rw [heq]
    exact hwrite.1
  · rw [heq, World.blind_disconnect blind_mSendBuffer]
    exact hwrite.1
  · rw [heq]
    exact hv

/-- `SendRequest` reports whether the packet was taken. -/
theorem sendRequest_spec {s : ClientSession} (hv : s.mSendBuffer.Valid) (pkt : OutPacket)
    (os : Os) :
    (s.sendRequest pkt os).1 = s.accepts pkt ∧
      (s.accepts pkt = true → (s.sendRequest pkt os).2.1.mConnected = true) ∧
      (s.sendRequest pkt os).2.1.mSendBuffer.contents
        = s.mSendBuffer.contents ++ if s.accepts pkt then pkt.toBytes else [] := by
  obtain ⟨-, hcontents, -, hroom⟩ := CircularBuffer.write_spec hv pkt.toBytes
    (shortToSize pkt.mSize) (Nat.le_of_eq pkt.length_toBytes.symm)
  rw [← pkt.length_toBytes, List.take_length, pkt.length_toBytes] at hcontents
  unfold accepts
  rcases s.sendRequest_cases pkt os with ⟨hc, hwrite, heq⟩ | ⟨hc, hwrite, heq⟩ | ⟨hc, heq⟩
  · rw [hwrite] at hroom hcontents
    rw [heq, hc, Bool.true_and, decide_eq_true (hroom.mp rfl)]
    exact ⟨rfl, fun _ => rfl, hcontents⟩
  · rw [hwrite] at hroom hcontents
    have hfull : ¬ shortToSize pkt.mSize ≤ s.mSendBuffer.getFreeSpaceSize.1 := fun hle =>
      Bool.false_ne_true (hroom.mpr hle)
    rw [heq, hc, Bool.true_and, decide_eq_false hfull,
      World.blind_disconnect blind_mSendBuffer]
    exact ⟨rfl, nofun, hcontents.trans (List.append_nil _).symm⟩
  · rw [heq, hc, Bool.false_and]
    exact ⟨rfl, nofun, (List.append_nil _).symm⟩

theorem offered_sendRequest {s : ClientSession} (hv : s.mSendBuffer.Valid) (pkt : OutPacket)
    {os : Os} (h : os.Granted (s.sendRequest pkt os).2.2) :
    Offered pkt s (s.sendRequest pkt os).2.1 := by
  obtain ⟨hok, htaken, hcontents⟩ := sendRequest_spec hv pkt os
  refine ⟨?_, hcontents⟩
  cases haccepts : s.accepts pkt with
  | true => exact htaken haccepts
  | false =>
      rcases s.sendRequest_cases pkt os with ⟨-, -, heq⟩ | ⟨-, -, heq⟩ | ⟨hc, heq⟩
      · rw [heq, haccepts] at hok
        cases hok
      · rw [heq] at h ⊢
        exact mConnected_disconnect_of_granted h
      · rw [heq]
        exact hc

end ClientSession

namespace World

variable {w w' : World} {this : SessionId} {pkt : OutPacket}

-- ============================================================================
-- All sessions
-- ============================================================================

/-- Every send buffer is in order. -/
def SendValid (w : World) : Prop := ∀ i, (w.sessions i).mSendBuffer.Valid

theorem SendValid.fixed (h : w.SendValid) (hfix : Fixes ClientSession.mSendBuffer w w') :
    w'.SendValid := by
  intro i
  rw [hfix i]
  exact h i

theorem SendValid.put (h : w.SendValid) {r : ClientSession × Os} (hr : r.1.mSendBuffer.Valid) :
    (w.put this r).SendValid := by
  intro i
  by_cases hi : i = this
  · rw [hi, sessions_put_self]
    exact hr
  · rw [sessions_put_of_ne w r hi]
    exact h i

theorem SendValid.sendRequest (h : w.SendValid) (this : SessionId) (pkt : OutPacket) :
    (w.sendRequest this pkt).2.SendValid :=
  h.put (ClientSession.valid_sendRequest (h this) pkt w.os)

theorem contents_sendRequest (h : w.SendValid) (this : SessionId) (pkt : OutPacket)
    (i : SessionId) :
    ((w.sendRequest this pkt).2.sessions i).mSendBuffer.contents
      = (w.sessions i).mSendBuffer.contents ++
        if i = this then (if (w.sessions this).accepts pkt then pkt.toBytes else []) else [] := by
  by_cases hi : i = this
  · have hself : (w.sendRequest this pkt).2.sessions this = _ := sessions_put_self w this _
    rw [if_pos hi, hi, hself]
    exact (ClientSession.sendRequest_spec (h this) pkt w.os).2.2
  · have hother : (w.sendRequest this pkt).2.sessions i = _ := sessions_put_of_ne w _ hi
    rw [if_neg hi, List.append_nil, hother]

theorem asks_sendRequest (w : World) (this : SessionId) (pkt : OutPacket) :
    w.os.Asks (w.sendRequest this pkt).2.os := ClientSession.asks_sendRequest _ pkt w.os

theorem asks_disconnect (w : World) (this : SessionId) : w.os.Asks (w.disconnect this).os :=
  ClientSession.asks_disconnect _ w.os

/-- What `BroadcastPacket` does for one entry of the client list. -/
def offerTo (sender : SessionId) (pkt : OutPacket) (w : World) (it : SOCKET × SessionId) : World :=
  if sender = it.2 then w else (w.sendRequest it.2 pkt).2

theorem asks_foldl_offerTo (sender : SessionId) (pkt : OutPacket)
    (its : List (SOCKET × SessionId)) (w : World) :
    w.os.Asks (its.foldl (offerTo sender pkt) w).os := by
  induction its generalizing w with
  | nil => exact .refl _
  | cons it its ih =>
      refine .trans ?_ (ih (offerTo sender pkt w it))
      unfold offerTo
      split
      · exact .refl _
      · exact asks_sendRequest w it.2 pkt

theorem SendValid.foldl_offerTo (h : w.SendValid) (sender : SessionId) (pkt : OutPacket)
    (its : List (SOCKET × SessionId)) : (its.foldl (offerTo sender pkt) w).SendValid := by
  induction its generalizing w with
  | nil => exact h
  | cons it its ih =>
      refine ih ?_
      unfold offerTo
      split
      · exact h
      · exact h.sendRequest it.2 pkt

/-- Sessions listed once are offered the packet once, but for the sender. -/
theorem offered_foldl {sender : SessionId} {its : List (SOCKET × SessionId)}
    (hnodup : (its.map Prod.snd).Nodup) (hv : w.SendValid)
    (hgranted : w.os.Granted (its.foldl (offerTo sender pkt) w).os) (i : SessionId) :
    (i ≠ sender → i ∈ its.map Prod.snd →
        ClientSession.Offered pkt (w.sessions i)
          ((its.foldl (offerTo sender pkt) w).sessions i)) ∧
      (i = sender ∨ i ∉ its.map Prod.snd →
        (its.foldl (offerTo sender pkt) w).sessions i = w.sessions i) := by
  induction its generalizing w with
  | nil => exact ⟨fun _ hmem => absurd hmem List.not_mem_nil, fun _ => rfl⟩
  | cons it its ih =>
      obtain ⟨hnew, hnodup'⟩ := List.nodup_cons.mp hnodup
      rw [List.foldl_cons] at hgranted ⊢
      by_cases hself : sender = it.2
      · have hsame : offerTo sender pkt w it = w := if_pos hself
        rw [hsame] at hgranted ⊢
        obtain ⟨hoffered, hothers⟩ := ih hnodup' hv hgranted
        refine ⟨fun hne hmem => hoffered hne ?_, fun hi => hothers ?_⟩
        · rcases List.mem_cons.mp hmem with heq | hmem
          · exact absurd (heq.trans hself.symm) hne
          · exact hmem
        · exact hi.imp_right (fun hmem h => hmem (List.mem_cons_of_mem _ h))
      · have hoffer : offerTo sender pkt w it = (w.sendRequest it.2 pkt).2 := if_neg hself
        rw [hoffer] at hgranted ⊢
        obtain ⟨hgranted₁, hgranted₂⟩ := hgranted.split
          (asks_sendRequest w it.2 pkt) (asks_foldl_offerTo sender pkt its _)
        obtain ⟨hoffered, hothers⟩ := ih hnodup' (hv.sendRequest it.2 pkt) hgranted₂
        have hput : ∀ j, j ≠ it.2 → (w.sendRequest it.2 pkt).2.sessions j = w.sessions j :=
          fun j hj => sessions_put_of_ne w _ hj
        by_cases hi : i = it.2
        · -- its turn is now, and does not come again
          subst hi
          refine ⟨fun _ _ => ?_, fun h => ?_⟩
          · rw [hothers (Or.inr hnew)]
            show ClientSession.Offered pkt _ ((w.put it.2 _).sessions it.2)
            rw [sessions_put_self]
            exact ClientSession.offered_sendRequest (hv it.2) pkt hgranted₁
          · rcases h with heq | hmem
            · exact absurd heq.symm hself
            · exact absurd List.mem_cons_self hmem
        · rw [hput i hi] at hoffered hothers
          refine ⟨fun hne hmem => hoffered hne ?_, fun h => hothers ?_⟩
          · exact (List.mem_cons.mp hmem).resolve_left hi
          · exact h.imp_right (fun hmem hin => hmem (List.mem_cons_of_mem _ hin))

/-- Is the session registered? -/
def IsListed (w : World) (i : SessionId) : Prop := ∃ k : SOCKET, w.mClientList[k]? = some i

theorem offered_broadcastPacket {sender : SessionId}
    (hnodup : (w.mClientList.toList.map Prod.snd).Nodup) (hv : w.SendValid)
    (hgranted : w.os.Granted (w.broadcastPacket sender pkt).os) (i : SessionId) :
    (i ≠ sender → w.IsListed i →
        ClientSession.Offered pkt (w.sessions i) ((w.broadcastPacket sender pkt).sessions i)) ∧
      (i = sender ∨ ¬ w.IsListed i →
        (w.broadcastPacket sender pkt).sessions i = w.sessions i) := by
  obtain ⟨hoffered, hothers⟩ := offered_foldl hnodup hv hgranted i
  refine ⟨fun hne hreg => hoffered hne (mem_registered_iff.mpr hreg), fun h => hothers ?_⟩
  exact h.imp_right (fun hnot hmem => hnot (mem_registered_iff.mp hmem))

/-- Taking a packet has nothing to do with who the session is. -/
theorem offered_congr {s₁ s s' : ClientSession} (h : ClientSession.Offered pkt s₁ s')
    (hconn : s₁.mConnected = s.mConnected) (hbuffer : s₁.mSendBuffer = s.mSendBuffer) :
    ClientSession.Offered pkt s s' := by
  have haccepts : s₁.accepts pkt = s.accepts pkt := by
    rw [ClientSession.accepts, ClientSession.accepts, hconn, hbuffer]
  obtain ⟨hconn', hcontents⟩ := h
  rw [haccepts] at hconn' hcontents
  rw [hbuffer] at hcontents
  exact ⟨hconn', hcontents⟩

/-- What a relay does to all sessions: nobody but the sender is offered a
    packet that the sender does not take. -/
structure Relays (w w' : World) (this : SessionId) (pkt : OutPacket) : Prop where
  offered : ∀ i, i = this ∨ ((w.sessions this).accepts pkt = true ∧ w.IsListed i) →
    ClientSession.Offered pkt (w.sessions i) (w'.sessions i)
  others : ∀ i, ¬ (i = this ∨ ((w.sessions this).accepts pkt = true ∧ w.IsListed i)) →
    w'.sessions i = w.sessions i
  broadcasts : w'.broadcasts
    = w.broadcasts ++ if (w.sessions this).accepts pkt then [(this, pkt)] else []

theorem broadcasts_append {ns : List Note} (h : w'.trace = w.trace ++ ns) :
    w'.broadcasts = w.broadcasts ++ ns.filterMap (fun
      | .broadcast i pkt => some (i, pkt)
      | _ => none) := by
  rw [broadcasts, h, List.filterMap_append]
  rfl

theorem broadcasts_congr (h : w'.trace = w.trace) : w'.broadcasts = w.broadcasts :=
  (broadcasts_append (h.trans (List.append_nil _).symm)).trans (List.append_nil _)

/-- The sender's own copy decides which way a relay goes. -/
theorem relay_cases (hv : w.SendValid) (this : SessionId) (pkt : OutPacket) :
    ((w.sessions this).accepts pkt = true ∧ w.relay this pkt =
        ((w.sendRequest this pkt).2.note (.broadcast this pkt)).broadcastPacket this pkt) ∨
      ((w.sessions this).accepts pkt = false ∧
        w.relay this pkt = (w.sendRequest this pkt).2.disconnect this) := by
  obtain ⟨hok, htaken, -⟩ := ClientSession.sendRequest_spec (hv this) pkt w.os
  have hok' : (w.sendRequest this pkt).1 = (w.sessions this).accepts pkt := hok
  cases haccepts : (w.sessions this).accepts pkt with
  | true =>
      rw [haccepts] at hok'
      have hc : ((w.sendRequest this pkt).2.sessions this).mConnected = true := by
        show ((w.put this _).sessions this).mConnected = true
        rw [sessions_put_self]
        exact htaken haccepts
      refine Or.inl ⟨rfl, ?_⟩
      simp only [relay, broadcast, hok', hc, if_true]
  | false =>
      rw [haccepts] at hok'
      refine Or.inr ⟨rfl, ?_⟩
      simp only [relay, broadcast, hok', Bool.false_eq_true, if_false]

theorem SendValid.relay (h : w.SendValid) (this : SessionId) (pkt : OutPacket) :
    (w.relay this pkt).SendValid := by
  have hsend := h.sendRequest this pkt
  rcases relay_cases h this pkt with ⟨-, heq⟩ | ⟨-, heq⟩
  · rw [heq]
    have hnoted : ((w.sendRequest this pkt).2.note (.broadcast this pkt)).SendValid := hsend
    exact hnoted.foldl_offerTo this pkt _
  · rw [heq]
    exact hsend.fixed (fixes_disconnect ClientSession.blind_mSendBuffer _ this)

/-- The size of a send buffer. -/
def sendCapacity (s : ClientSession) : Nat := s.mSendBuffer.mBufferEnd

theorem fixes_sendCapacity_sendRequest (hv : w.SendValid) (this : SessionId) (pkt : OutPacket) :
    Fixes sendCapacity w (w.sendRequest this pkt).2 := by
  refine fixes_put ?_
  have hwrite := CircularBuffer.write_spec (hv this) pkt.toBytes (shortToSize pkt.mSize)
    (Nat.le_of_eq pkt.length_toBytes.symm)
  have hblind : ClientSession.Blind sendCapacity :=
    ⟨fun _ _ => rfl, fun _ _ => rfl, fun _ _ => rfl⟩
  rcases (w.sessions this).sendRequest_cases pkt w.os with
    ⟨-, -, heq⟩ | ⟨-, -, heq⟩ | ⟨-, heq⟩
  · rw [heq]
    exact hwrite.2.2.1
  · rw [heq, blind_disconnect hblind]
    exact hwrite.2.2.1
  · rw [heq]

/-- A relay leaves the size of every send buffer. -/
theorem fixes_sendCapacity_relay (hv : w.SendValid) (this : SessionId) (pkt : OutPacket) :
    Fixes sendCapacity w (w.relay this pkt) := by
  have hsend := fixes_sendCapacity_sendRequest hv this pkt
  have hall : ∀ (its : List (SOCKET × SessionId)) (w : World), w.SendValid →
      Fixes sendCapacity w (its.foldl (offerTo this pkt) w) := by
    intro its
    induction its with
    | nil => exact fun w _ => .refl w
    | cons it its ih =>
        intro w hv
        rw [List.foldl_cons, offerTo]
        split
        · exact ih w hv
        · exact (fixes_sendCapacity_sendRequest hv it.2 pkt).trans
            (ih _ (hv.sendRequest it.2 pkt))
  rcases relay_cases hv this pkt with ⟨-, heq⟩ | ⟨-, heq⟩
  · rw [heq]
    exact hsend.trans (hall _ ((w.sendRequest this pkt).2.note _) (hv.sendRequest this pkt))
  · rw [heq]
    exact hsend.trans (fixes_disconnect ⟨fun _ _ => rfl, fun _ _ => rfl, fun _ _ => rfl⟩ _ this)

/-- A sender without room is hung up if the linger option can be set. -/
theorem mConnected_relay_of_refused (hv : w.SendValid)
    (hrefused : (w.sessions this).accepts pkt = false)
    (hask : w.os.answers w.os.asked = true) :
    ((w.relay this pkt).sessions this).mConnected = false := by
  obtain ⟨hok, -, -⟩ := ClientSession.sendRequest_spec (hv this) pkt w.os
  have hsent : ((w.sessions this).sendRequest pkt w.os).2.1.mConnected = false := by
    rcases (w.sessions this).sendRequest_cases pkt w.os with
      ⟨-, -, heq⟩ | ⟨hc, -, heq⟩ | ⟨hc, heq⟩
    · rw [heq, hrefused] at hok
      cases hok
    · have hask' : w.os.ask.1 = true := hask
      simp only [heq, ClientSession.disconnect, hc, hask', if_true]
    · rw [heq]
      exact hc
  rcases relay_cases hv this pkt with ⟨haccepts, -⟩ | ⟨-, heq⟩
  · rw [hrefused] at haccepts
    cases haccepts
  · have hself : (w.sendRequest this pkt).2.sessions this = _ := sessions_put_self w this _
    refine eq_false_of_ne_true (fun hc => ?_)
    rw [heq] at hc
    have hbefore := ((calm_disconnect _ this).sessions this).mConnected hc
    rw [hself, hsent] at hbefore
    cases hbefore

/-- With nobody else registered, a packet that its sender takes needs no call. -/
theorem os_relay_alone {k : SOCKET} (hv : w.SendValid)
    (haccepts : (w.sessions this).accepts pkt = true)
    (halone : w.mClientList.toList = [(k, this)]) : (w.relay this pkt).os = w.os := by
  obtain ⟨hok, -, -⟩ := ClientSession.sendRequest_spec (hv this) pkt w.os
  rcases relay_cases hv this pkt with ⟨-, heq⟩ | ⟨hrefused, -⟩
  · have hlist : ((w.sendRequest this pkt).2.note (.broadcast this pkt)).mClientList.toList
        = [(k, this)] := halone
    rw [heq, broadcastPacket, hlist, List.foldl_cons, if_pos rfl]
    show ((w.sessions this).sendRequest pkt w.os).2.2 = w.os
    rcases (w.sessions this).sendRequest_cases pkt w.os with
      ⟨-, -, hsend⟩ | ⟨-, -, hsend⟩ | ⟨-, hsend⟩
    · rw [hsend]
    · rw [hsend, haccepts] at hok
      cases hok
    · rw [hsend]
  · rw [haccepts] at hrefused
    cases hrefused

/-- `BroadcastPacket` passes over the sender. -/
theorem sessions_foldl_offerTo_self (sender : SessionId) (pkt : OutPacket)
    (its : List (SOCKET × SessionId)) (w : World) :
    (its.foldl (offerTo sender pkt) w).sessions sender = w.sessions sender := by
  induction its generalizing w with
  | nil => rfl
  | cons it its ih =>
      rw [List.foldl_cons, ih, offerTo]
      split
      next => rfl
      next hne => exact sessions_put_of_ne w _ hne

/-- A sender's own copy is the only one it gets. -/
theorem contents_relay_of_accepted (hv : w.SendValid)
    (haccepts : (w.sessions this).accepts pkt = true) :
    ((w.relay this pkt).sessions this).mSendBuffer.contents
      = (w.sessions this).mSendBuffer.contents ++ pkt.toBytes := by
  rcases relay_cases hv this pkt with ⟨-, heq⟩ | ⟨hrefused, -⟩
  · have hself := sessions_foldl_offerTo_self this pkt w.mClientList.toList
      ((w.sendRequest this pkt).2.note (.broadcast this pkt))
    have hcontents := contents_sendRequest hv this pkt this
    rw [if_pos rfl, haccepts, if_pos rfl] at hcontents
    rw [heq]
    exact (congrArg (fun s => s.mSendBuffer.contents) hself).trans hcontents
  · rw [haccepts] at hrefused
    cases hrefused

theorem relays_relay (hkeyed : w.Keyed) (hv : w.SendValid)
    (hgranted : w.os.Granted (w.relay this pkt).os) : Relays w (w.relay this pkt) this pkt := by
  have hsend := asks_sendRequest w this pkt
  have hnodup := nodup_registered hkeyed
  have hself : (w.sendRequest this pkt).2.sessions this
      = ((w.sessions this).sendRequest pkt w.os).2.1 := sessions_put_self w this _
  have hput : ∀ i, i ≠ this → (w.sendRequest this pkt).2.sessions i = w.sessions i :=
    fun i hi => sessions_put_of_ne w _ hi
  rcases relay_cases hv this pkt with ⟨haccepts, heq⟩ | ⟨haccepts, heq⟩
  · rw [heq] at hgranted ⊢
    obtain ⟨hgranted₁, hgranted₂⟩ := hgranted.split hsend
      (asks_foldl_offerTo this pkt _ ((w.sendRequest this pkt).2.note _))
    have hcast := offered_broadcastPacket
      (w := (w.sendRequest this pkt).2.note (.broadcast this pkt)) hnodup
      (hv.sendRequest this pkt) hgranted₂
    have hsender : ClientSession.Offered pkt (w.sessions this)
        (((w.sendRequest this pkt).2.note (.broadcast this pkt)).sessions this) := by
      show ClientSession.Offered pkt _ ((w.sendRequest this pkt).2.sessions this)
      rw [hself]
      exact ClientSession.offered_sendRequest (hv this) pkt hgranted₁
    refine ⟨fun i hi => ?_, fun i hi => ?_, ?_⟩
    · by_cases hthis : i = this
      · rw [hthis, (hcast this).2 (Or.inl rfl)]
        exact hsender
      · have hoffered := (hcast i).1 hthis (hi.resolve_left hthis).2
        rw [show ((w.sendRequest this pkt).2.note (.broadcast this pkt)).sessions i
          = w.sessions i from hput i hthis] at hoffered
        exact hoffered
    · obtain ⟨hthis, hnot⟩ := not_or.mp hi
      rw [(hcast i).2 (Or.inr (fun hreg => hnot ⟨haccepts, hreg⟩))]
      exact hput i hthis
    · rw [haccepts, if_pos rfl]
      have htrace : ((w.sendRequest this pkt).2.note (.broadcast this pkt)).trace
          = w.trace ++ [.broadcast this pkt] := rfl
      exact (broadcasts_congr (steady_broadcastPacket _ this pkt).trace).trans
        (broadcasts_append htrace)
  · rw [heq] at hgranted ⊢
    obtain ⟨-, hgranted₂⟩ := hgranted.split hsend (asks_disconnect _ this)
    obtain ⟨-, -, hcontents⟩ := ClientSession.sendRequest_spec (hv this) pkt w.os
    refine ⟨fun i hi => ?_, fun i hi => ?_, ?_⟩
    · obtain rfl : i = this := hi.resolve_right (fun h => by simp [haccepts] at h)
      have hhung : ((w.sendRequest i pkt).2.disconnect i).sessions i = _ := sessions_put_self _ i _
      rw [hhung]
      refine ⟨?_, ?_⟩
      · rw [haccepts]
        exact ClientSession.mConnected_disconnect_of_granted hgranted₂
      · rw [blind_disconnect ClientSession.blind_mSendBuffer, hself]
        exact hcontents
    · have hthis : i ≠ this := fun h => hi (Or.inl h)
      exact (sessions_put_of_ne _ _ hthis).trans (hput i hthis)
    · rw [haccepts, if_neg Bool.false_ne_true, List.append_nil]
      exact broadcasts_congr rfl

-- ============================================================================
-- Handlers and logins
-- ============================================================================

/-- What a handler has stored before it relays. -/
structure Prepares (w w' : World) : Prop where
  mSocket : Fixes ClientSession.mSocket w w'
  mSendBuffer : Fixes ClientSession.mSendBuffer w w'
  mConnected : Fixes ClientSession.mConnected w w'
  mClientList : w'.mClientList = w.mClientList
  os : w'.os = w.os
  broadcasts : w'.broadcasts = w.broadcasts

theorem prepares_consumed (w : World) (this : SessionId) (type : PacketTypes)
    (bytes : List UInt8) (rest : CircularBuffer) :
    Prepares w (w.consumed this type bytes rest) where
  mSocket := fixes_put rfl
  mSendBuffer := fixes_consumed ClientSession.blind_mSendBuffer w this type bytes rest
  mConnected := fixes_put rfl
  mClientList := rfl
  os := rfl
  broadcasts := (noEffect_consumed w this type bytes rest).broadcasts

theorem prepares_setPosition (w : World) (this : SessionId) (x y : CFloat) :
    Prepares w (w.modify this (fun s => s.setPosition x y)) :=
  ⟨fixes_put rfl, fixes_put rfl, fixes_put rfl, rfl, rfl, rfl⟩

theorem Prepares.trans {w'' : World} (h : Prepares w w') (h' : Prepares w' w'') : Prepares w w'' :=
  ⟨h.mSocket.trans h'.mSocket, h.mSendBuffer.trans h'.mSendBuffer, h.mConnected.trans h'.mConnected,
    h'.mClientList.trans h.mClientList, h'.os.trans h.os, h'.broadcasts.trans h.broadcasts⟩

theorem Prepares.keyed (h : Prepares w w') (hkeyed : w.Keyed) : w'.Keyed := by
  intro k i hk
  rw [h.mClientList] at hk
  rw [h.mSocket i]
  exact hkeyed k i hk

theorem Prepares.accepts (h : Prepares w w') (i : SessionId) (pkt : OutPacket) :
    (w'.sessions i).accepts pkt = (w.sessions i).accepts pkt := by
  rw [ClientSession.accepts, ClientSession.accepts, h.mConnected i, h.mSendBuffer i]

/-- An iteration of `OnRead` that goes on relays a chat or a move, or leaves
    the send buffers alone. -/
theorem relayed_onReadBody (h : onReadBody this w = .again w') :
    (Fixes ClientSession.mSendBuffer w w' ∧ w'.broadcasts = w.broadcasts) ∨
      ∃ w₁ pkt, (∀ p, pkt ≠ .loginResult p) ∧ Prepares w w₁ ∧ w' = w₁.relay this pkt := by
  cases readsAgain_of_onReadBody h with
  | hungUp =>
      exact Or.inl ⟨fixes_disconnect ClientSession.blind_mSendBuffer w this, broadcasts_congr rfl⟩
  | short => exact Or.inl ⟨.refl w, rfl⟩
  | read r bytes rest _ _ hread hrun =>
      have hprep := prepares_consumed w this r.type bytes rest
      cases handled_of_read hread hrun with
      | login hr => exact Or.inl ⟨hprep.mSendBuffer, hprep.broadcasts⟩
      | refused hr hpid => exact Or.inl ⟨hprep.mSendBuffer, hprep.broadcasts⟩
      | chat hr hpid pkt => exact Or.inr ⟨_, .chatBroadcastResult pkt, nofun, hprep, rfl⟩
      | move hr hpid =>
          have hmoved := prepares_setPosition (w.consumed this r.type bytes rest) this
            (MoveRequest.ofBytes bytes).mPosX (MoveRequest.ofBytes bytes).mPosY
          exact Or.inr ⟨_, .moveBroadcastResult _, nofun, hprep.trans hmoved, rfl⟩

/-- `SendCompletion` removes bytes, or none, of one send buffer. -/
theorem mSendBuffer_sendCompletion (w : World) (post : SendPost) (dwError : Bool)
    (cbTransferred : Nat) :
    Fixes ClientSession.mSendBuffer w (w.sendCompletion post dwError cbTransferred) ∨
      ∀ i, ((w.sendCompletion post dwError cbTransferred).sessions i).mSendBuffer =
        if i = post.owner then (w.sessions i).mSendBuffer.remove cbTransferred
        else (w.sessions i).mSendBuffer := by
  rcases (w.sessions post.owner).sendCompletion_cases dwError cbTransferred
      { w.os with sends := w.os.sends.erase post } with heq | heq | heq
  · refine Or.inl ?_
    rw [sendCompletion, heq]
    exact fixes_put rfl
  · refine Or.inl ?_
    rw [sendCompletion, heq]
    exact fixes_put (blind_disconnect ClientSession.blind_mSendBuffer _ _)
  · refine Or.inr (fun i => ?_)
    rw [sendCompletion, heq]
    by_cases hi : i = post.owner
    · rw [if_pos hi, hi, sessions_put_self]
      rfl
    · rw [if_neg hi, sessions_put_of_ne _ _ hi]

/-- `LoginDone` buffers its login result, if that fits, and nothing else. -/
theorem sendBuffer_loginDone (hv : w.SendValid) (this : SessionId) (pid : Int32) (x y : CFloat)
    (name : CString maxNameLen) :
    (w.loginDone this pid x y name).SendValid ∧
      ∃ p bytes, (bytes = [] ∨ bytes = (OutPacket.loginResult p).toBytes) ∧
        ∀ i, ((w.loginDone this pid x y name).sessions i).mSendBuffer.contents
          = (w.sessions i).mSendBuffer.contents ++ if i = this then bytes else [] := by
  unfold loginDone
  extract_lets w₁ outPacket w₂ w₃
  have hblind := ClientSession.blind_mSendBuffer
  have hmade : Fixes ClientSession.mSendBuffer w w₁ := fixes_put rfl
  have hv₁ := hv.fixed hmade
  have hrest : Fixes ClientSession.mSendBuffer w₂ ((w₃.onTick this).onDbUpdate this) :=
    (fixes_put rfl).trans ((fixes_onTick hblind w₃ this).trans (fixes_onDbUpdate hblind _ this))
  refine ⟨(hv₁.sendRequest this _).fixed hrest, outPacket,
    if (w₁.sessions this).accepts (.loginResult outPacket) then
      (OutPacket.loginResult outPacket).toBytes else [], ?_, fun i => ?_⟩
  · split
    · exact Or.inr rfl
    · exact Or.inl rfl
  · rw [hrest i, ← hmade i]
    exact contents_sendRequest hv₁ this _ i

end World
end EasyGameServer
