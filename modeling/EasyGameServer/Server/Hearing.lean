/-
  EasyGameServer.Server.Hearing

  The receive side of a session in the server.  Only the completion of its own
  receive and the loop of its own `OnRead` touch it; to everything else the
  session is `Deaf`.  So what a run of the server does to one session, as long
  as it is connected or being read, is a run of its `Receiver`.
-/

import EasyGameServer.PacketHandling.Framing
import EasyGameServer.Server.Receiving

namespace EasyGameServer

open Lib

namespace World

open Receiver (posts)

/-- Nothing of a session's receive side changes. -/
structure Deaf (i : SessionId) (w w' : World) : Prop where
  recv : w'.recv i = w.recv i
  posts : posts w' i = posts w i
  parsedBy : w'.parsedBy i = w.parsedBy i

variable {w w' w'' : World} {i this : SessionId}

namespace Deaf

theorem refl (i : SessionId) (w : World) : Deaf i w w := ⟨rfl, rfl, rfl⟩

theorem trans (h : Deaf i w w') (h' : Deaf i w' w'') : Deaf i w w'' :=
  ⟨h'.recv.trans h.recv, h'.posts.trans h.posts, h'.parsedBy.trans h.parsedBy⟩

theorem of_recvs (hrecv : w'.recv i = w.recv i) (hrecvs : w'.os.recvs = w.os.recvs)
    (hparsed : w'.parsedBy i = w.parsedBy i) : Deaf i w w' :=
  ⟨hrecv, by rw [Receiver.posts, hrecvs, Receiver.posts], hparsed⟩

end Deaf

theorem Calm.deaf (h : w.Calm w') (i : SessionId) : Deaf i w w' :=
  .of_recvs (h.sessions i).mRecvBuffer h.recvs (h.parsedBy i)

/-- A note that is no packet read. -/
theorem parsedBy_note {n : Note} (h : ∀ type bytes, n ≠ .parsed i type bytes) :
    (w.note n).parsedBy i = w.parsedBy i := by
  show ((w.trace ++ [n]).filterMap _) = _
  rw [List.filterMap_append]
  cases n with
  | parsed j type bytes =>
      have hne : j ≠ i := fun heq => h type bytes (heq ▸ rfl)
      simp [parsedBy, hne]
  | broadcast j pkt => simp [parsedBy]
  | loginDone j pid => simp [parsedBy]

theorem deaf_put {r : ClientSession × Os} (hrecvs : r.2.recvs = w.os.recvs)
    (h : i = this → r.1.mRecvBuffer = (w.sessions this).mRecvBuffer) :
    Deaf i w (w.put this r) := by
  refine .of_recvs ?_ hrecvs rfl
  by_cases hi : i = this
  · rw [recv, hi, sessions_put_self]
    exact h hi
  · rw [recv, sessions_put_of_ne w r hi]

theorem mRecvBuffer_disconnect (s : ClientSession) (os : Os) :
    (s.disconnect os).1.mRecvBuffer = s.mRecvBuffer :=
  (ClientSession.fades_disconnect s os).keeps.mRecvBuffer

theorem deaf_flushClientSend (i : SessionId) (w : World) : Deaf i w w.flushClientSend := by
  unfold flushClientSend
  generalize w.mClientList.toList = its
  induction its generalizing w with
  | nil => exact .refl i w
  | cons it its ih =>
      have hone : Deaf i w (w.put it.2 ((w.sessions it.2).flushClientSend it.2 w.os)) := by
        rcases (w.sessions it.2).flushClientSend_cases it.2 w.os with
          ⟨-, heq⟩ | ⟨-, -, k, heq⟩ | ⟨-, -, k, heq⟩
        · rw [heq]
          exact deaf_put rfl (fun _ => rfl)
        · rw [heq]
          exact deaf_put rfl (fun _ => rfl)
        · rw [heq]
          exact deaf_put (ClientSession.fades_disconnect _ _).recvs
            (fun _ => mRecvBuffer_disconnect _ _)
      rw [List.foldl_cons]
      exact hone.trans (ih _)

theorem deaf_sendCompletion (i : SessionId) (w : World) (post : SendPost) (dwError : Bool)
    (cbTransferred : Nat) : Deaf i w (w.sendCompletion post dwError cbTransferred) := by
  unfold sendCompletion
  rcases (w.sessions post.owner).sendCompletion_cases dwError cbTransferred
      { w.os with sends := w.os.sends.erase post } with heq | heq | heq
  · rw [heq]
    exact deaf_put rfl (fun _ => rfl)
  · rw [heq]
    exact deaf_put (ClientSession.fades_disconnect _ _).recvs
      (fun _ => mRecvBuffer_disconnect _ _)
  · rw [heq]
    exact deaf_put rfl (fun _ => rfl)

theorem deaf_callFuncAfter (i : SessionId) (w : World) (after : UInt32) (this : SessionId)
    (memfunc : SessionTask) : Deaf i w (w.callFuncAfter after this memfunc) := by
  have hcount : Deaf i w (w.modify this ClientSession.incRefCount) := deaf_put rfl (fun _ => rfl)
  exact ⟨hcount.recv, hcount.posts, hcount.parsedBy⟩

theorem deaf_onTick (i : SessionId) (w : World) (this : SessionId) :
    Deaf i w (w.onTick this) := by
  unfold onTick
  split
  · exact deaf_callFuncAfter i w _ this _
  · exact .refl i w

theorem deaf_onDbUpdate (i : SessionId) (w : World) (this : SessionId) :
    Deaf i w (w.onDbUpdate this) := by
  unfold onDbUpdate
  split
  · have hpush : Deaf i w (w.pushDatabaseJobRequest this (updateJob (w.sessions this))) :=
      ⟨rfl, rfl, rfl⟩
    exact hpush.trans (deaf_callFuncAfter i _ _ this _)
  · exact .refl i w

theorem deaf_doTask (i : SessionId) (h : w.doTask = some w') : Deaf i w w' := by
  obtain ⟨e, -, rfl⟩ := doTask_eq h
  have htask : Deaf i w (w.runTask e) := by
    unfold runTask
    split
    · exact deaf_onTick i w _
    · exact deaf_onDbUpdate i w _
  have hcount : Deaf i (w.runTask e) ((w.runTask e).modify e.mOwner ClientSession.decRefCount) :=
    deaf_put rfl (fun _ => rfl)
  exact htask.trans ⟨hcount.recv, hcount.posts, hcount.parsedBy⟩

theorem deaf_loginDone (i : SessionId) (w : World) (this : SessionId) (pid : Int32)
    (x y : CFloat) (name : CString maxNameLen) : Deaf i w (w.loginDone this pid x y name) := by
  unfold loginDone
  extract_lets w₁ outPacket w₂ w₃
  have hnote : Deaf i w (w.note (.loginDone this pid)) := ⟨rfl, rfl, parsedBy_note nofun⟩
  have hplayer : Deaf i (w.note (.loginDone this pid)) w₁ := deaf_put rfl (fun _ => rfl)
  have hsent : Deaf i w₁ w₂ := (calm_sendRequest w₁ this _).deaf i
  have hlogon : Deaf i w₂ w₃ := deaf_put rfl (fun _ => rfl)
  exact ((((hnote.trans hplayer).trans hsent).trans hlogon).trans (deaf_onTick i w₃ this)).trans
    (deaf_onDbUpdate i _ this)

theorem deaf_dispatchDatabaseJobResult (i : SessionId) {job : DatabaseJobContext}
    (h : w.dispatchDatabaseJobResult job = some w') : Deaf i w w' := by
  rcases dispatchDatabaseJobResult_cases h with rfl | ⟨client, login, -, -, -, -, -, rfl⟩
  · exact .refl i _
  · exact deaf_loginDone i w client _ _ _ _

theorem deaf_onPeriodWork (i : SessionId) (h : w.Keyed) (currTick : UInt32) :
    Deaf i w (w.onPeriodWork currTick) := by
  obtain ⟨ds, hc | heq⟩ := onPeriodWork_spec h currTick
  · refine .of_recvs ?_ ?_ ?_
    · rw [recv, hc.sessions]
    · rw [hc.os]
    · rw [parsedBy, hc.trace, parsedBy]
  · rw [heq]
    exact .refl i w

-- ============================================================================
-- The others' receive sides
-- ============================================================================

theorem deaf_recvCompletion (w : World) {post : RecvPost} (hi : i ≠ post.owner) (dwError : Bool)
    (data : List UInt8) : Deaf i w (w.recvCompletion post dwError data).2 := by
  have hposts : (w.os.recvs.erase post).filter (fun p => p.owner = i) = posts w i := by
    rw [← List.erase_filter, List.erase_of_not_mem]
    · rfl
    · exact fun hmem => hi (of_decide_eq_true (List.mem_filter.mp hmem).2).symm
  have hstored : ∀ s : ClientSession, Deaf i w
      (w.put post.owner (s, { w.os with recvs := w.os.recvs.erase post })) := by
    intro s
    refine ⟨?_, hposts, rfl⟩
    rw [recv, sessions_put_of_ne w _ hi]
  rcases recvCompletion_cases w post dwError data with ⟨-, heq⟩ | ⟨-, -, heq⟩ | ⟨-, -, heq⟩
  · rw [heq]
    exact hstored _
  · rw [heq]
    exact (hstored _).trans ((calm_disconnect _ post.owner).deaf i)
  · rw [heq]
    exact hstored _

theorem deaf_recvExit (w : World) (hi : i ≠ this) : Deaf i w (w.recvExit this) := by
  rcases recvExit_cases w this with ⟨-, hcalm⟩ | ⟨-, k, heq⟩ | ⟨-, k, hcalm⟩
  · exact hcalm.deaf i
  · rw [heq]
    refine ⟨?_, ?_, rfl⟩
    · rw [recv, sessions_put_of_ne w _ hi]
    · show (w.os.recvs ++ [_]).filter (fun p => p.owner = i) = posts w i
      rw [List.filter_append, List.filter_singleton, decide_eq_false (fun h => hi h.symm)]
      exact List.append_nil _
  · refine Deaf.trans ?_ (hcalm.deaf i)
    exact deaf_put rfl (fun h => absurd h hi)

theorem deaf_onReadBody (h : onReadBody this w = .again w') (hi : i ≠ this) : Deaf i w w' := by
  have hconsumed : ∀ type bytes rest, Deaf i w (w.consumed this type bytes rest) := by
    intro type bytes rest
    have hstored : Deaf i w (w.modify this (fun s => { s with mRecvBuffer := rest })) :=
      deaf_put rfl (fun h => absurd h hi)
    have hnote : ∀ type' bytes', Note.parsed this type bytes ≠ .parsed i type' bytes' := by
      rintro type' bytes' heq
      cases heq
      exact hi rfl
    exact hstored.trans ⟨rfl, rfl, parsedBy_note hnote⟩
  cases consumes_of_onReadBody h with
  | calm hcalm => exact hcalm.deaf i
  | login bytes rest => exact (hconsumed _ bytes rest).trans ⟨rfl, rfl, rfl⟩
  | other r bytes rest _ hcalm => exact (hconsumed _ bytes rest).trans (hcalm.deaf i)

theorem deaf_acceptClient (w : World) (hi : i ≠ w.next) (sock : SOCKET)
    (sendMem recvMem : Nat → UInt8) : Deaf i w (w.acceptClient sock sendMem recvMem) := by
  rw [acceptClient_eq]
  refine Deaf.trans ?_ (deaf_recvExit _ hi)
  refine ⟨?_, rfl, rfl⟩
  rw [recv, Server.sessions_connectClient, if_neg hi]

/-- Its invariant is about the receive side only. -/
theorem Receiver.Inv.deaf {packets : List (List UInt8)} {reading : Bool} {stream : List UInt8}
    (h : Receiver.Inv i packets ⟨w, reading, stream⟩) (hd : Deaf i w w') :
    Receiver.Inv i packets ⟨w', reading, stream⟩ := by
  obtain ⟨hvalid, hend, hstream, hsplit, hparsed, hwindow, hnoPost, hless⟩ := h
  obtain ⟨hrecv, hposts, hparsedBy⟩ := hd
  refine ⟨?_, ?_, hstream, ?_, ?_, ?_, ?_, ?_⟩
  · rw [hrecv]
    exact hvalid
  · rw [hrecv]
    exact hend
  · rw [hparsedBy, hrecv]
    exact hsplit
  · rw [hparsedBy]
    exact hparsed
  · intro hr p hp
    rw [hposts] at hp ⊢
    rw [hrecv]
    exact hwindow hr p hp
  · rw [hposts]
    exact hnoPost
  · rw [hparsedBy, hrecv]
    exact hless

/-- The client has more to send. -/
theorem Receiver.Inv.more {packets : List (List UInt8)} {st : Receiver}
    (h : Receiver.Inv i packets st) {more : List (List UInt8)}
    (hmore : ∀ p ∈ more, Conforming p) : Receiver.Inv i (packets ++ more) st := by
  obtain ⟨rest, hpackets, hpre⟩ := h.rest
  refine ⟨h.valid, h.mBufferEnd, ?_, h.split, ?_, h.window, h.noPost, ?_⟩
  · rw [List.flatten_append]
    exact h.stream.trans (List.prefix_append _ _)
  · exact h.parsed.trans (List.prefix_append _ _)
  · intro hr p later hp
    cases rest with
    | nil =>
        -- nothing is buffered, and the packet is not empty
        rw [hpackets, List.append_nil, List.append_cancel_left_eq] at hp
        obtain ⟨r, -, hlen, -⟩ := hmore p (hp ▸ List.mem_cons_self)
        have hpos := r.size_pos
        have hempty : (st.world.recv i).contents = [] := List.prefix_nil.mp hpre
        rw [hempty, List.length_nil]
        omega
    | cons q rest =>
        rw [hpackets, List.append_assoc, List.append_cancel_left_eq, List.cons_append,
          List.cons.injEq] at hp
        exact h.less hr p rest (hp.1 ▸ hpackets)

end World

-- ============================================================================
-- A session in a run of the server
-- ============================================================================

namespace Server

open World.Receiver (posts)

variable {st st' : Server} {i : SessionId} {packets : List (List UInt8)} {arrived : List UInt8}

/-- It is being read, or waits for more. -/
def Live (st : Server) (i : SessionId) : Prop :=
  st.clientThread = .reading i ∨
    ((st.world.sessions i).mConnected = true ∧ posts st.world i ≠ [])

/-- The receive side of a session that has received these bytes. -/
def receiver (st : Server) (i : SessionId) (arrived : List UInt8) : World.Receiver where
  world := st.world
  reading := decide (st.clientThread = .reading i)
  stream := arrived

/-- A session's client sends these packets, and so many bytes of them have
    come. -/
structure Listens (st : Server) (i : SessionId) (packets : List (List UInt8))
    (arrived : List UInt8) : Prop where
  unheard : st.world.next ≤ i → st.world.parsedBy i = [] ∧ arrived = []
  parsed : st.world.parsedBy i <+: packets
  stream : arrived <+: packets.flatten
  live : st.Live i → World.Receiver.Inv i packets (st.receiver i arrived)

/-- What a step brings a session. -/
def heard (i : SessionId) : Event → List UInt8
  | .recvCompletion post _ data => if post.owner = i then data else []
  | _ => []

theorem posts_unused (h : Sound st) (hi : st.world.next ≤ i) : posts st.world i = [] := by
  by_contra hne
  obtain ⟨p, hp⟩ := List.exists_mem_of_ne_nil _ hne
  obtain ⟨hmem, howner⟩ := List.mem_filter.mp hp
  have hpos : 0 < st.world.os.recvs.countP (fun p => p.owner = i) :=
    List.countP_pos_iff.mpr ⟨p, hmem, howner⟩
  have hheld : 0 < st.world.held i := by
    rw [World.held, Os.posted]
    omega
  exact absurd (h.held i hheld).1 (Nat.not_lt.mpr hi)

theorem Listens.more (h : Listens st i packets arrived) {more : List (List UInt8)}
    (hmore : ∀ p ∈ more, World.Conforming p) : Listens st i (packets ++ more) arrived where
  unheard := h.unheard
  parsed := h.parsed.trans (List.prefix_append _ _)
  stream := by
    rw [List.flatten_append]
    exact h.stream.trans (List.prefix_append _ _)
  live hl := (h.live hl).more hmore

/-- A step that leaves the receive side alone. -/
theorem Listens.deaf (h : Listens st i packets arrived) (hdeaf : World.Deaf i st.world st'.world)
    (hnext : st.world.next ≤ st'.world.next)
    (hconn : (st'.world.sessions i).mConnected = true → (st.world.sessions i).mConnected = true)
    (hthread : st'.clientThread = .reading i ↔ st.clientThread = .reading i) :
    Listens st' i packets arrived := by
  refine ⟨fun hi => ?_, ?_, h.stream, fun hl => ?_⟩
  · rw [hdeaf.parsedBy]
    exact h.unheard (Nat.le_trans hnext hi)
  · rw [hdeaf.parsedBy]
    exact h.parsed
  · have hlive : st.Live i := by
      rcases hl with hr | ⟨hc, hp⟩
      · exact Or.inl (hthread.mp hr)
      · exact Or.inr ⟨hconn hc, hdeaf.posts ▸ hp⟩
    have hreading :
        decide (st'.clientThread = .reading i) = decide (st.clientThread = .reading i) :=
      decide_eq_decide.mpr hthread
    rw [receiver, hreading]
    exact (h.live hlive).deaf hdeaf

/-- The session is created. -/
theorem Listens.born (h : Listens st st.world.next packets arrived) (hsound : Sound st)
    (hpk : ∀ p ∈ packets, World.Conforming p) {sock : SOCKET} {sendMem recvMem : Nat → UInt8}
    (hworld : st'.world = st.world.acceptClient sock sendMem recvMem)
    (hthread : st'.clientThread = .loopTop) (hnext : st'.world.next = st.world.next + 1) :
    Listens st' st.world.next packets arrived := by
  obtain ⟨hparsed, rfl⟩ := h.unheard (Nat.le_refl _)
  have hinv := World.Receiver.inv_start hpk
    ⟨st.world, sock, sendMem, recvMem, rfl, posts_unused hsound (Nat.le_refl _), hparsed, rfl⟩
  have hreading : decide (st'.clientThread = .reading st.world.next) = false := by
    rw [hthread]
    rfl
  rw [← hworld] at hinv
  refine ⟨fun hi => ?_, hinv.parsed, List.nil_prefix, fun _ => ?_⟩
  · rw [hnext] at hi
    exact absurd hi (Nat.not_succ_le_self _)
  · rw [receiver, hreading]
    exact hinv

/-- One of its receives completes. -/
theorem Listens.complete {post : RecvPost} {dwError : Bool} {data : List UInt8} {apcRan : Bool}
    (h : Listens st post.owner packets arrived) (hsound : Sound st)
    (hthread : st.clientThread = .sleeping apcRan) (hpost : post ∈ st.world.os.recvs)
    (hlen : data.length ≤ post.len) (hstream : arrived ++ data <+: packets.flatten)
    (hst' : st' = { st with
      world := (st.world.recvCompletion post dwError data).2
      clientThread := if (st.world.recvCompletion post dwError data).1 then
        .reading post.owner else .sleeping true }) :
    Listens st' post.owner packets (arrived ++ data) := by
  have hworld : st'.world = (st.world.recvCompletion post dwError data).2 := by rw [hst']
  have hthread' : st'.clientThread = if (st.world.recvCompletion post dwError data).1 then
      .reading post.owner else .sleeping true := by rw [hst']
  have hmine : post ∈ posts st.world post.owner :=
    List.mem_filter.mpr ⟨hpost, decide_eq_true rfl⟩
  have hparsedBy : st'.world.parsedBy post.owner = st.world.parsedBy post.owner := by
    rw [hworld]
    rcases World.recvCompletion_cases st.world post dwError data with
      ⟨-, heq⟩ | ⟨-, -, heq⟩ | ⟨-, -, heq⟩
    · rw [heq]
      rfl
    · rw [heq]
      exact (World.calm_disconnect _ post.owner).parsedBy _
    · rw [heq]
      rfl
  have hevolves := World.evolves_recvCompletion (P := fun _ => True) hpost dwError data
  refine ⟨fun hi => ?_, ?_, hstream, fun hl => ?_⟩
  · -- who has a receive outstanding exists
    rw [hworld, hevolves.next] at hi
    rw [posts_unused hsound hi] at hmine
    cases hmine
  · rw [hparsedBy]
    exact h.parsed
  · have hconn : (st.world.sessions post.owner).mConnected = true := by
      rcases hl with hr | ⟨hc, -⟩
      · rw [hthread'] at hr
        split at hr
        next hgoes => exact (reading_of_recvCompletion hpost hgoes).2
        next => cases hr
      · rw [hworld] at hc
        exact hevolves.mConnected _ hc
    have hinv := h.live (Or.inr ⟨hconn, List.ne_nil_of_mem hmine⟩)
    have hidle : (st.receiver post.owner arrived).reading = false := by
      rw [receiver, hthread]
      rfl
    rcases World.recvCompletion_cases st.world post dwError data with
      ⟨hdisc, -⟩ | ⟨-, -, heq⟩ | ⟨-, hgoes, -⟩
    · exact absurd (hconn.symm.trans hdisc) (by decide)
    · -- it has failed, and no receive is left
      have hfalse : (st.world.recvCompletion post dwError data).1 = false := by rw [heq]
      rw [hfalse] at hthread'
      rcases hl with hr | ⟨-, hposts⟩
      · cases hthread'.symm.trans hr
      · refine absurd ?_ hposts
        rw [World.Receiver.posts, hworld, World.recvs_recvCompletion, ← List.erase_filter]
        have honly := (hinv.window hidle post hmine).1
        have herase := congrArg (fun l => l.erase post) honly
        rw [List.erase_cons_head] at herase
        exact herase
    · obtain ⟨herr, hne⟩ := not_or.mp hgoes
      obtain rfl : dwError = false := eq_false_of_ne_true herr
      have hcond : (st.receiver post.owner arrived).reading = false ∧
          post ∈ posts (st.receiver post.owner arrived).world post.owner ∧
          ((st.receiver post.owner arrived).world.sessions post.owner).mConnected = true ∧
          data ≠ [] ∧ data.length ≤ post.len := ⟨hidle, hmine, hconn, hne, hlen⟩
      have hdeliver : World.Receiver.Inv post.owner packets
          ⟨(st.world.recvCompletion post false data).2,
            (st.world.recvCompletion post false data).1, arrived ++ data⟩ :=
        hinv.deliver hstream (if_pos hcond)
      have hreading : decide (st'.clientThread = .reading post.owner)
          = (st.world.recvCompletion post false data).1 := by
        rw [hthread']
        cases (st.world.recvCompletion post false data).1 with
        | true => exact decide_eq_true rfl
        | false => rfl
      rw [receiver, hreading, hworld]
      exact hdeliver

/-- Its loop goes on, or leaves. -/
theorem Listens.iterate (h : Listens st i packets arrived) (hsound : Sound st)
    (hpk : ∀ p ∈ packets, World.Conforming p) (hthread : st.clientThread = .reading i)
    (hnext : st'.world.next = st.world.next) (reading : Bool)
    (hbody : World.Receiver.step i (st.receiver i arrived) .iterate
      = some ⟨st'.world, reading, arrived⟩)
    (hreading : decide (st'.clientThread = .reading i) = reading) :
    Listens st' i packets arrived := by
  have hin : (st.receiver i arrived).reading = true := decide_eq_true hthread
  have hinv := (h.live (Or.inl hthread)).iterate hpk hin hbody
  refine ⟨fun hi => ?_, hinv.parsed, h.stream, fun _ => ?_⟩
  · -- who is read has been created
    rw [hnext] at hi
    exact absurd (hsound.reading i hthread).1 (Nat.not_lt.mpr hi)
  · rw [receiver, hreading]
    exact hinv

/-- **One session in a run.**  Whatever a step of the server is, the receive
    side of a session goes on hearing what its client sends. -/
theorem Listens.step {a : Event} (h : Listens st i packets arrived) (hsound : Sound st)
    (hpk : ∀ p ∈ packets, World.Conforming p) (hstep : st.step a = some st')
    (hstream : arrived ++ heard i a <+: packets.flatten) :
    Listens st' i packets (arrived ++ heard i a) := by
  have hsound' := hsound.step hstep
  have hages := ages_of_step hstep hsound.keyed
  -- a session that is created now aside, nobody gets connected
  have hconn : (∀ sendMem recvMem, a ≠ .takeAccepted sendMem recvMem) ∨ i ≠ st.world.next →
      (st'.world.sessions i).mConnected = true → (st.world.sessions i).mConnected = true := by
    intro hnot hc
    rcases mConnected_step hstep hsound.keyed hc with hc | ⟨hi, sendMem, recvMem, ha⟩
    · exact hc
    · rcases hnot with hnot | hnot
      · exact absurd ha (hnot sendMem recvMem)
      · exact absurd hi hnot
  have hdeaf : World.Deaf i st.world st'.world →
      ((∀ sendMem recvMem, a ≠ .takeAccepted sendMem recvMem) ∨ i ≠ st.world.next) →
      (st'.clientThread = .reading i ↔ st.clientThread = .reading i) → heard i a = [] →
      Listens st' i packets (arrived ++ heard i a) := by
    intro hd hnot hthread hnothing
    rw [hnothing, List.append_nil]
    exact h.deaf hd hages.next (hconn hnot) hthread
  cases step_moves hstep with
  | takeAccepted sendMem recvMem sock q _ hthread hq =>
      by_cases hi : i = st.world.next
      · subst hi
        have hnothing : heard st.world.next (.takeAccepted sendMem recvMem) = [] := rfl
        rw [hnothing, List.append_nil]
        refine h.born hsound hpk rfl hthread ?_
        rw [World.acceptClient_eq]
        exact (World.evolves_recvExit (st.world.connectClient sock sendMem recvMem) _).next
      · refine hdeaf (World.deaf_acceptClient _ hi _ _ _) (Or.inr hi) ?_ rfl
        exact Iff.rfl
  | flush _ hthread =>
      refine hdeaf (World.deaf_flushClientSend i _) (Or.inl (by simp)) ?_ rfl
      rw [hthread]
      simp
  | wake _ hthread =>
      refine hdeaf (.refl i _) (Or.inl (by simp)) ?_ rfl
      rw [hthread]
      simp
  | recvCompletion post dwError data apcRan _ hthread hpost hlen =>
      by_cases hi : i = post.owner
      · subst hi
        rw [heard, if_pos rfl] at hstream ⊢
        exact h.complete hsound hthread hpost hlen hstream rfl
      · refine hdeaf (World.deaf_recvCompletion _ hi _ _) (Or.inl (by simp)) ?_
          (if_neg (fun heq => hi heq.symm))
        rw [hthread]
        refine ⟨fun heq => ?_, by simp⟩
        split at heq
        · exact absurd (ClientThread.reading.inj heq).symm hi
        · cases heq
  | readAgain this w _ hthread hbody =>
      by_cases hi : i = this
      · subst hi
        have hnothing : heard i .read = [] := rfl
        rw [hnothing, List.append_nil]
        have hevolves := World.evolves_onReadBody (P := fun _ => True) hbody
        refine h.iterate hsound hpk hthread hevolves.next true ?_ (decide_eq_true hthread)
        simp only [World.Receiver.step, receiver, hthread, decide_true, if_true, hbody]
      · exact hdeaf (World.deaf_onReadBody hbody hi) (Or.inl (by simp)) Iff.rfl rfl
  | readLeave this w _ hthread hbody =>
      have hcalm := World.onReadBody_leave hbody
      by_cases hi : i = this
      · subst hi
        have hnothing : heard i .read = [] := rfl
        rw [hnothing, List.append_nil]
        refine h.iterate hsound hpk hthread ?_ false ?_ rfl
        · exact (World.evolves_recvExit w i).next.trans hcalm.next
        · simp only [World.Receiver.step, receiver, hthread, decide_true, if_true, hbody]
      · refine hdeaf ((hcalm.deaf i).trans (World.deaf_recvExit _ hi)) (Or.inl (by simp)) ?_ rfl
        rw [hthread]
        exact ⟨by simp, fun heq => absurd (ClientThread.reading.inj heq).symm hi⟩
  | sendCompletion post dwError cbTransferred apcRan _ hthread =>
      refine hdeaf (World.deaf_sendCompletion i _ _ _ _) (Or.inl (by simp)) ?_ rfl
      rw [hthread]
      simp
  | timer tick apcRan _ hthread =>
      refine hdeaf ⟨rfl, rfl, rfl⟩ (Or.inl (by simp)) ?_ rfl
      rw [hthread]
      simp
  | taskRun w _ _ htask => exact hdeaf (World.deaf_doTask i htask) (Or.inl (by simp)) Iff.rfl rfl
  | taskNone _ hthread =>
      refine hdeaf (.refl i _) (Or.inl (by simp)) ?_ rfl
      rw [hthread]
      simp
  | period currTick _ hthread =>
      refine hdeaf (World.deaf_onPeriodWork i hsound.keyed _) (Or.inl (by simp)) ?_ rfl
      rw [hthread]
      simp
  | dispatchNone _ hthread =>
      refine hdeaf (.refl i _) (Or.inl (by simp)) ?_ rfl
      rw [hthread]
      simp
  | dispatchJob t q w _ _ _ hw =>
      exact hdeaf (World.deaf_dispatchDatabaseJobResult i hw) (Or.inl (by simp)) Iff.rfl rfl
  | accept => exact hdeaf ⟨rfl, rfl, rfl⟩ (Or.inl (by simp)) Iff.rfl rfl
  | produceAccepted => exact hdeaf (.refl i _) (Or.inl (by simp)) Iff.rfl rfl
  | produceRequest => exact hdeaf ⟨rfl, rfl, rfl⟩ (Or.inl (by simp)) Iff.rfl rfl
  | consumeRequest => exact hdeaf (.refl i _) (Or.inl (by simp)) Iff.rfl rfl
  | execute => exact hdeaf (.refl i _) (Or.inl (by simp)) Iff.rfl rfl
  | produceResult => exact hdeaf (.refl i _) (Or.inl (by simp)) Iff.rfl rfl

theorem listens_new (tick : UInt32) (answers : Nat → Bool) (players : Players) (i : SessionId) :
    Listens (new tick answers players) i [] [] :=
  ⟨fun _ => ⟨rfl, rfl⟩, List.nil_prefix, List.nil_prefix, fun hl => by
    rcases hl with hr | ⟨hc, -⟩
    · cases hr
    · cases hc⟩

end Server
end EasyGameServer
