/-
  EasyGameServer.PacketHandling.ReadLoop

  When the loop of `OnRead` ends, and when a handler takes as many bytes off
  the stream as the packet declares.

  The loop checks the size the client declares, the handlers read the size of
  their structs, and neither a handler that finds too little nor the default
  handler removes anything.  `Stuck` follows the loop through the buffered
  bytes to a packet of either kind; the loop ends exactly when there is none.
-/

import EasyGameServer.PacketHandling

namespace EasyGameServer

open Lib

namespace World

/-- Walking the bytes by the sizes the handlers read comes to a packet that is
    dispatched and not removed: one of an unregistered type, or one of which
    fewer bytes are there than its handler reads.  The walk ends without one
    where the loop is left, or where the process ends. -/
inductive Stuck (pid : Int32) : List UInt8 → Prop
  | unregistered {bs : List UInt8} (hd : Dispatched bs)
      (hr : registered? (PacketHeader.ofBytes bs).mType = none) : Stuck pid bs
  | short {bs : List UInt8} {r : Registered} (hd : Dispatched bs)
      (hr : registered? (PacketHeader.ofBytes bs).mType = some r)
      (hs : bs.length < r.size) : Stuck pid bs
  | next {bs : List UInt8} {r : Registered} (hd : Dispatched bs)
      (hr : registered? (PacketHeader.ofBytes bs).mType = some r) (hs : r.size ≤ bs.length)
      (hc : ¬ r.Crashes pid (bs.take r.size)) (hn : Stuck pid (bs.drop r.size)) : Stuck pid bs

theorem not_stuck_of_not_dispatched (pid : Int32) {bs : List UInt8} (h : ¬ Dispatched bs) :
    ¬ Stuck pid bs := by
  intro hs
  cases hs with
  | unregistered hd _ => exact h hd
  | short hd _ _ => exact h hd
  | next hd _ _ _ _ => exact h hd

/-- Bytes on which the process ends do not get stuck. -/
theorem not_stuck_of_crashes {pid : Int32} {bs : List UInt8} {r : Registered}
    (hr : registered? (PacketHeader.ofBytes bs).mType = some r) (hs : r.size ≤ bs.length)
    (hc : r.Crashes pid (bs.take r.size)) : ¬ Stuck pid bs := by
  intro h
  cases h with
  | unregistered _ hr' => cases hr.symm.trans hr'
  | short _ hr' hs' =>
      cases hr.symm.trans hr'
      omega
  | next _ hr' _ hc' _ =>
      cases hr.symm.trans hr'
      exact hc' hc

/-- Behind a struct that is read off nothing changes. -/
theorem stuck_drop_iff {pid : Int32} {bs : List UInt8} {r : Registered} (hd : Dispatched bs)
    (hr : registered? (PacketHeader.ofBytes bs).mType = some r) (hs : r.size ≤ bs.length)
    (hc : ¬ r.Crashes pid (bs.take r.size)) :
    Stuck pid bs ↔ Stuck pid (bs.drop r.size) := by
  constructor
  · intro h
    cases h with
    | unregistered _ hr' => cases hr.symm.trans hr'
    | short _ hr' hs' =>
        cases hr.symm.trans hr'
        omega
    | next _ hr' _ _ hn =>
        cases hr.symm.trans hr'
        exact hn
  · exact .next hd hr hs hc

/-! ## One iteration on the bytes -/

/-- The receive buffer of a session. -/
abbrev recv (w : World) (this : SessionId) : CircularBuffer := (w.sessions this).mRecvBuffer

/-- A handler has read its struct off the front of the bytes. -/
structure Took (w : World) (this : SessionId) (r : Registered) (w' : World) : Prop where
  valid : (w'.recv this).Valid
  contents : (w'.recv this).contents = (w.recv this).contents.drop r.size
  mBufferEnd : (w'.recv this).mBufferEnd = (w.recv this).mBufferEnd
  mPlayerId : (w'.sessions this).mPlayerId = (w.sessions this).mPlayerId
  recvs : w'.os.recvs = w.os.recvs
  parsedBy : w'.parsedBy this = w.parsedBy this ++ [(w.recv this).contents.take r.size]

/-- What a registered handler does to the bytes: nothing when they are too few,
    else it takes its struct off the front, unless the process ends. -/
theorem handler_spec {w : World} {this : SessionId} (hv : (w.recv this).Valid)
    (r : Registered) :
    ((w.recv this).contents.length < r.size ∧ r.handler this w = some w) ∨
      (r.size ≤ (w.recv this).contents.length ∧
        r.Crashes (w.sessions this).mPlayerId ((w.recv this).contents.take r.size) ∧
        r.handler this w = none) ∨
      (r.size ≤ (w.recv this).contents.length ∧
        ¬ r.Crashes (w.sessions this).mPlayerId ((w.recv this).contents.take r.size) ∧
        ∃ w', r.handler this w = some w' ∧ Took w this r w') := by
  rw [CircularBuffer.length_contents]
  by_cases hs : r.size ≤ (w.recv this).getStoredSize
  · obtain ⟨rest, hread, hv', hc', he'⟩ := CircularBuffer.read_spec hv hs
    have hself := sessions_consumed_self w this r.type ((w.recv this).contents.take r.size) rest
    have hparsed := parsedBy_consumed_self w this r.type ((w.recv this).contents.take r.size) rest
    have htook : Took w this r
        (w.consumed this r.type ((w.recv this).contents.take r.size) rest) := by
      refine ⟨?_, ?_, ?_, ?_, rfl, hparsed⟩
      · rw [recv, hself]
        exact hv'
      · rw [recv, hself]
        exact hc'
      · rw [recv, hself]
        exact he'
      · rw [hself]
    refine Or.inr ?_
    rcases handler_of_read r hread with ⟨rfl, heq⟩ | ⟨hc, heq⟩ | ⟨-, hc, w', heq, hcalm⟩
    · obtain ⟨h₁, h₂, h₃, h₄, h₅, h₆⟩ := htook
      exact Or.inr ⟨hs, fun hc => absurd hc.1 (by decide), _, heq, h₁, h₂, h₃, h₄, h₅, h₆⟩
    · exact Or.inl ⟨hs, hc, heq⟩
    · have hkeeps := hcalm.sessions this
      refine Or.inr ⟨hs, hc, w', heq, ?_, ?_, ?_, ?_, ?_, ?_⟩
      · rw [recv, hkeeps.mRecvBuffer]
        exact htook.valid
      · rw [recv, hkeeps.mRecvBuffer]
        exact htook.contents
      · rw [recv, hkeeps.mRecvBuffer]
        exact htook.mBufferEnd
      · rw [hkeeps.mPlayerId]
        exact htook.mPlayerId
      · rw [hcalm.recvs]
        exact htook.recvs
      · rw [hcalm.parsedBy]
        exact htook.parsedBy
  · refine Or.inl ⟨by omega, handler_of_read_none r ?_⟩
    exact CircularBuffer.read_none (Nat.lt_of_not_le hs)

/-- What one iteration does to the bytes. -/
theorem onReadBody_spec {w : World} {this : SessionId} (hv : (w.recv this).Valid) :
    (¬ Dispatched (w.recv this).contents ∧
        (onReadBody this w = .leave (some w) ∨
          onReadBody this w = .leave (some (w.disconnect this)))) ∨
      (onReadBody this w = .leave none ∧ Dispatched (w.recv this).contents ∧
        ∃ r, registered? (PacketHeader.ofBytes (w.recv this).contents).mType = some r ∧
          r.size ≤ (w.recv this).contents.length ∧
          r.Crashes (w.sessions this).mPlayerId ((w.recv this).contents.take r.size)) ∨
      (∃ w', onReadBody this w = .again w' ∧ w'.recv this = w.recv this ∧
        (w'.sessions this).mPlayerId = (w.sessions this).mPlayerId ∧
        Stuck (w.sessions this).mPlayerId (w.recv this).contents) ∨
      (∃ w' r, onReadBody this w = .again w' ∧ Dispatched (w.recv this).contents ∧
        registered? (PacketHeader.ofBytes (w.recv this).contents).mType = some r ∧
        r.size ≤ (w.recv this).contents.length ∧
        ¬ r.Crashes (w.sessions this).mPlayerId ((w.recv this).contents.take r.size) ∧
        Took w this r w') := by
  rcases onReadBody_cases this w with hleave | ⟨hd, hdisp⟩
  · exact Or.inl hleave
  · refine Or.inr ?_
    cases hr : registered? (PacketHeader.ofBytes (w.recv this).contents).mType with
    | none =>
        simp only [handlerTable, hr, defaultHandler] at hdisp
        rcases hdisp with ⟨hnone, -⟩ | ⟨w', hsome, heq⟩
        · cases hnone
        · cases hsome
          have hkeeps := (calm_disconnect w this).sessions this
          exact Or.inr (Or.inl ⟨_, heq, hkeeps.mRecvBuffer, hkeeps.mPlayerId,
            .unregistered hd hr⟩)
    | some r =>
        simp only [handlerTable, hr] at hdisp
        rcases handler_spec hv r with ⟨hs, hrun⟩ | ⟨hs, hc, hrun⟩ | ⟨hs, hc, w', hrun, htook⟩
        · rw [hrun] at hdisp
          rcases hdisp with ⟨hnone, -⟩ | ⟨w', hsome, heq⟩
          · cases hnone
          · cases hsome
            exact Or.inr (Or.inl ⟨_, heq, rfl, rfl, .short hd hr hs⟩)
        · rw [hrun] at hdisp
          rcases hdisp with ⟨-, heq⟩ | ⟨w', hsome, -⟩
          · exact Or.inl ⟨heq, hd, r, rfl, hs, hc⟩
          · cases hsome
        · rw [hrun] at hdisp
          rcases hdisp with ⟨hnone, -⟩ | ⟨w'', hsome, heq⟩
          · cases hnone
          · cases hsome
            exact Or.inr (Or.inr ⟨_, r, heq, hd, rfl, hs, hc, htook⟩)

/-! ## The loop ends -/

/-- The loop of `OnRead` returns, and every iteration that does not leave it
    removes at least one byte. -/
def Progresses (this : SessionId) (w : World) : Prop :=
  Terminates (onReadBody this) w ∧
    ∀ h h', Heads (onReadBody this) w h → onReadBody this h = .again h' →
      (h'.recv this).getStoredSize < (h.recv this).getStoredSize

/-- An iteration keeps whether the bytes get stuck, leaves the loop only where
    they do not, and else makes them fewer. -/
theorem onReadBody_stuck {w : World} {this : SessionId} (hv : (w.recv this).Valid) :
    (¬ Stuck (w.sessions this).mPlayerId (w.recv this).contents ∧
        ∃ r, onReadBody this w = .leave r) ∨
      ∃ w', onReadBody this w = .again w' ∧ (w'.recv this).Valid ∧
        (Stuck (w.sessions this).mPlayerId (w.recv this).contents ↔
          Stuck (w'.sessions this).mPlayerId (w'.recv this).contents) ∧
        (Stuck (w.sessions this).mPlayerId (w.recv this).contents ∨
          (w'.recv this).getStoredSize < (w.recv this).getStoredSize) := by
  rcases onReadBody_spec hv with ⟨hnd, hleave⟩ | ⟨hleave, -, r, hr, hsize, hc⟩
      | ⟨w', hagain, hrecv, hpid, hstuck⟩ | ⟨w', r, hagain, hd, hr, hsize, hc, htook⟩
  · exact .inl ⟨not_stuck_of_not_dispatched _ hnd, hleave.elim (⟨_, ·⟩) (⟨_, ·⟩)⟩
  · exact .inl ⟨not_stuck_of_crashes hr hsize hc, _, hleave⟩
  · refine .inr ⟨w', hagain, ?_, ?_, .inl hstuck⟩
    · rw [hrecv]
      exact hv
    · rw [hpid, hrecv]
  · refine .inr ⟨w', hagain, htook.valid, ?_, .inr ?_⟩
    · rw [htook.mPlayerId, htook.contents]
      exact stuck_drop_iff hd hr hsize hc
    · have hpos := r.size_pos
      rw [← CircularBuffer.length_contents, ← CircularBuffer.length_contents, htook.contents,
        List.length_drop]
      omega

theorem progresses_iff {w : World} {this : SessionId} (hv : (w.recv this).Valid) :
    Progresses this w ↔ ¬ Stuck (w.sessions this).mPlayerId (w.recv this).contents := by
  show Advances (onReadBody this) (fun w => (w.recv this).getStoredSize) w ↔ _
  let I : World → Prop := fun w => (w.recv this).Valid
  have hI : I w := hv
  exact advances_iff (fun _ hv => onReadBody_stuck hv) hI

/-- **`OnRead` ends.**  For every world, session and number of received bytes,
    the loop of `OnRead` ends with progress in every iteration if and only if
    the buffered bytes do not get stuck. -/
theorem onRead_progresses_iff (w : World) (this : SessionId) (len : Nat)
    (hv : ((w.commitRecv this len).recv this).Valid) :
    Progresses this (w.commitRecv this len) ↔
      ¬ Stuck (w.sessions this).mPlayerId ((w.commitRecv this len).recv this).contents := by
  have hpid : ((w.commitRecv this len).sessions this).mPlayerId = (w.sessions this).mPlayerId := by
    rw [commitRecv, sessions_modify_self]
  rw [← hpid]
  exact progresses_iff hv

/-- One session, whose first receive has brought `data`. -/
def received (data : List UInt8) : World :=
  ((new 0 (fun _ => true)).acceptClient 5 (fun _ => 0) (fun _ => 0)).arrive
    ⟨0, 0, BUFSIZE⟩ data

theorem received_spec (data : List UInt8) (h : data.length ≤ BUFSIZE) :
    (((received data).commitRecv 0 data.length).recv 0).Valid ∧
      (((received data).commitRecv 0 data.length).recv 0).contents = data := by
  have hnew := CircularBuffer.valid_new BUFSIZE (fun _ => 0)
  obtain ⟨hv, hc, -⟩ := CircularBuffer.store_commit_spec hnew data
    (show data.length ≤ (CircularBuffer.new BUFSIZE (fun _ => 0)).room from h)
  exact ⟨hv, hc⟩

/-- A login request that is all there. -/
theorem onRead_progresses_login :
    Progresses 0 ((received [8, 0, 1, 0, 7, 0, 0, 0]).commitRecv 0 8) := by
  obtain ⟨hv, hc⟩ := received_spec [8, 0, 1, 0, 7, 0, 0, 0] (by decide)
  refine (onRead_progresses_iff _ 0 8 hv).mpr (fun hs => ?_)
  rw [show (((received [8, 0, 1, 0, 7, 0, 0, 0]).commitRecv 0 8).recv 0).contents = _ from hc]
    at hs
  cases hs with
  | unregistered _ hr => exact absurd hr (by decide)
  | short _ hr hs =>
      obtain rfl : Registered.login = _ := Option.some.inj hr
      exact absurd hs (by decide)
  | next _ hr _ _ hn =>
      obtain rfl : Registered.login = _ := Option.some.inj hr
      exact not_stuck_of_not_dispatched _ (fun hd => absurd hd.header (by decide)) hn

/-- Four bytes of an unregistered type keep the client thread busy for ever. -/
theorem onRead_hangs :
    ∃ (w : World) (this : SessionId) (len : Nat), (w.sessions this).mConnected = true ∧
      ((w.commitRecv this len).recv this).Valid ∧ ¬ Progresses this (w.commitRecv this len) := by
  obtain ⟨hv, hc⟩ := received_spec [4, 0, 2, 0] (by decide)
  refine ⟨received [4, 0, 2, 0], 0, 4, rfl, hv, fun h => ?_⟩
  apply (progresses_iff hv).mp h
  rw [hc]
  exact .unregistered ⟨by decide, by decide, by decide, by decide⟩ (by decide)

/-! ## What a handler removes -/

/-- **Declared length.**  A registered handler that `OnRead` dispatches to, and
    that returns, has removed exactly the bytes the packet declares if and only
    if the packet declares the size of the handler's struct, or declares no
    bytes at all while fewer than that size are there. -/
theorem handler_removes_declared_iff (w w' : World) (this : SessionId) (r : Registered)
    (hv : (w.recv this).Valid) (hd : Dispatched (w.recv this).contents)
    (hr : registered? (PacketHeader.ofBytes (w.recv this).contents).mType = some r)
    (hreturns : handlerTable (PacketHeader.ofBytes (w.recv this).contents).mType this w
      = some w') :
    (w'.recv this).contents = (w.recv this).contents.drop
        (shortToSize (PacketHeader.ofBytes (w.recv this).contents).mSize) ↔
      shortToSize (PacketHeader.ofBytes (w.recv this).contents).mSize = r.size ∨
        (shortToSize (PacketHeader.ofBytes (w.recv this).contents).mSize = 0 ∧
          (w.recv this).contents.length < r.size) := by
  have harrived := hd.arrived
  have hheader := hd.header
  have hpos := r.size_pos
  simp only [handlerTable, hr] at hreturns
  generalize shortToSize (PacketHeader.ofBytes (w.recv this).contents).mSize = n at *
  -- two drops inside the list agree only when they drop the same number
  have hdrop : ∀ k, k ≤ (w.recv this).contents.length →
      ((w.recv this).contents.drop k = (w.recv this).contents.drop n ↔ n = k) := by
    intro k hk
    constructor
    · intro heq
      have hlen := congrArg List.length heq
      rw [List.length_drop, List.length_drop] at hlen
      omega
    · rintro rfl
      rfl
  rcases handler_spec hv r with ⟨hs, hrun⟩ | ⟨-, -, hrun⟩ | ⟨hs, -, w₁, hrun, htook⟩
  · rw [hrun] at hreturns
    cases hreturns
    have hzero := hdrop 0 (Nat.zero_le _)
    rw [List.drop_zero] at hzero
    rw [hzero]
    omega
  · rw [hrun] at hreturns
    cases hreturns
  · rw [hrun] at hreturns
    cases hreturns
    rw [htook.contents, hdrop _ hs]
    omega

/-- A login request of its own size is removed as declared. -/
theorem handler_removes_declared_login :
    ∃ (w w' : World), handlerTable PacketTypes.pktCsLogin.value 0 w = some w' ∧
      (w.recv 0).contents = [8, 0, 1, 0, 7, 0, 0, 0] ∧
      (w'.recv 0).contents = (w.recv 0).contents.drop 8 := by
  obtain ⟨hv, hc⟩ := received_spec [8, 0, 1, 0, 7, 0, 0, 0] (by decide)
  have hr : registered? (PacketHeader.ofBytes [8, 0, 1, 0, 7, 0, 0, 0]).mType = some .login := by
    decide
  rcases handler_spec hv .login with ⟨hs, -⟩ | ⟨-, hcrash, -⟩ | ⟨-, -, w', hrun, -⟩
  · rw [hc] at hs
    exact absurd hs (by decide)
  · exact absurd hcrash.1 (by decide)
  · have hiff := handler_removes_declared_iff _ w' 0 .login hv
      (hc ▸ ⟨by decide, by decide, by decide, by decide⟩) (hc ▸ hr)
      (by rw [hc, handlerTable, hr]; exact hrun)
    rw [hc] at hiff
    refine ⟨_, w', hrun, hc, ?_⟩
    rw [hc]
    exact hiff.mpr (Or.inl (by decide))

/-- A login request that declares only its header is removed whole. -/
theorem handler_removes_undeclared :
    ∃ (w : World) (this : SessionId) (r : Registered) (w' : World),
      (w.sessions this).mConnected = true ∧ (w.recv this).Valid ∧
      Dispatched (w.recv this).contents ∧
      registered? (PacketHeader.ofBytes (w.recv this).contents).mType = some r ∧
      handlerTable (PacketHeader.ofBytes (w.recv this).contents).mType this w = some w' ∧
      (w'.recv this).contents ≠ (w.recv this).contents.drop
        (shortToSize (PacketHeader.ofBytes (w.recv this).contents).mSize) := by
  obtain ⟨hv, hc⟩ := received_spec [4, 0, 1, 0, 7, 0, 0, 0] (by decide)
  have hlen : ([4, 0, 1, 0, 7, 0, 0, 0] : List UInt8).length = 8 := rfl
  have hr : registered? (PacketHeader.ofBytes [4, 0, 1, 0, 7, 0, 0, 0]).mType = some .login := by
    decide
  rcases handler_spec hv .login with ⟨hs, -⟩ | ⟨-, hcrash, -⟩ | ⟨-, -, w', hrun, htook⟩
  · rw [hc] at hs
    exact absurd hs (by decide)
  · exact absurd hcrash.1 (by decide)
  · refine ⟨(received [4, 0, 1, 0, 7, 0, 0, 0]).commitRecv 0 8, 0, .login, w', rfl, hv, ?_⟩
    have hcont := htook.contents
    rw [hlen] at hc hcont
    rw [hcont, hc]
    refine ⟨⟨by decide, by decide, by decide, by decide⟩, hr, ?_, by decide⟩
    rw [handlerTable, hr]
    exact hrun

end World
end EasyGameServer
