/-
  EasyGameServer.Server.Lines

  What the server sends to each of its clients.  A line is one session's share:
  the packets that were put into its send buffer, cut where the system has got
  to.  In a run whose flushes meet no outstanding send, what is handed to the
  system for a session is the beginning of its packets, each byte once.

  The chats and moves among them are what the server has broadcast since the
  session came, in the one order in which it has, none missed in between; a
  session that is still there has everything up to the last broadcast.
-/

import EasyGameServer.PacketType.Relayed
import EasyGameServer.Server.Broadcast
import EasyGameServer.Server.Receiving
import EasyGameServer.Server.Speaking
import EasyGameServer.World.Wire

namespace EasyGameServer

open Lib
open OutPacket (stream stream_append)

-- ============================================================================
-- One line
-- ============================================================================

/-- These packets were put into a session's send buffer, and the first bytes of
    them, already removed, went to the system, as did the next `posted`. -/
structure Line (w : World) (i : SessionId) (packets : List OutPacket) (removed : List UInt8)
    (posted : Nat) : Prop where
  enqueued : stream packets = removed ++ (w.sessions i).mSendBuffer.contents
  transmitted :
    w.os.transmitted i = removed ++ (w.sessions i).mSendBuffer.contents.take posted
  posted_le : posted ≤ (w.sessions i).mSendBuffer.contents.length
  sends : (w.sessions i).mConnected = true →
    (w.os.sendsOf i).map SendPost.len = if posted = 0 then [] else [posted]

/-- A session's line has come as far as that. -/
def HasLine (w : World) (i : SessionId) (packets : List OutPacket) : Prop :=
  ∃ removed posted, Line w i packets removed posted

namespace HasLine

variable {w w' : World} {i : SessionId} {packets : List OutPacket}

/-- What is handed over is the beginning of the packets. -/
theorem transmitted_prefix (h : HasLine w i packets) : w.os.transmitted i <+: stream packets := by
  obtain ⟨removed, posted, hline⟩ := h
  rw [hline.transmitted, hline.enqueued]
  exact List.prefix_append_right_inj _ |>.mpr (List.take_prefix _ _)

/-- With nothing left in the buffer, everything has been handed over. -/
theorem transmitted_of_empty (h : HasLine w i packets)
    (hempty : (w.sessions i).mSendBuffer.contents = []) :
    w.os.transmitted i = stream packets := by
  obtain ⟨removed, posted, hline⟩ := h
  rw [hline.transmitted, hline.enqueued, hempty, List.take_nil]

/-- More packets get into the buffer. -/
theorem enqueue (h : HasLine w i packets) (hunsent : w.os.Unsent w'.os) {more : List OutPacket}
    (hcontents : (w'.sessions i).mSendBuffer.contents
      = (w.sessions i).mSendBuffer.contents ++ stream more)
    (hconn : (w'.sessions i).mConnected = true → (w.sessions i).mConnected = true) :
    HasLine w' i (packets ++ more) := by
  obtain ⟨removed, posted, henq, htrans, hle, hsends⟩ := h
  refine ⟨removed, posted, ?_, ?_, ?_, ?_⟩
  · rw [stream_append, henq, hcontents, List.append_assoc]
  · rw [hunsent.transmitted, htrans, hcontents, List.take_append_of_le_length hle]
  · rw [hcontents, List.length_append]
    omega
  · intro hc
    rw [hunsent.sendsOf]
    exact hsends (hconn hc)

/-- Nothing of the session changes. -/
theorem untouched (h : HasLine w i packets) (hsame : World.Untouched i w w') :
    HasLine w' i packets := by
  obtain ⟨removed, posted, henq, htrans, hle, hsends⟩ := h
  refine ⟨removed, posted, ?_, ?_, ?_, ?_⟩
  · rw [hsame.session]
    exact henq
  · rw [hsame.session, hsame.transmitted]
    exact htrans
  · rw [hsame.session]
    exact hle
  · rw [hsame.session, hsame.sendsOf]
    exact hsends

/-- A flush that meets no outstanding send hands over what is next. -/
theorem flushed (h : HasLine w i packets) (hv : (w.sessions i).mSendBuffer.Valid)
    (hflushed : World.Flushed i w w')
    (hbuffer : (w'.sessions i).mSendBuffer = (w.sessions i).mSendBuffer)
    (hconn : (w'.sessions i).mConnected = true → (w.sessions i).mConnected = true)
    (hfree : (w.sessions i).Ready → w.os.sendsOf i = []) : HasLine w' i packets := by
  cases hflushed with
  | idle _ hsame => exact h.untouched hsame
  | posted hready hconn' hwire hsends' =>
      obtain ⟨removed, posted, henq, htrans, hle, hsends⟩ := h
      obtain ⟨hpend, hple⟩ := CircularBuffer.contiguous_spec hv
      have hnone := hsends hready.1
      rw [hfree hready] at hnone
      -- nothing is outstanding, so the buffer begins where the system has got to
      have hzero : posted = 0 := by
        by_contra hne
        rw [if_neg hne] at hnone
        cases hnone
      refine ⟨removed, (w.sessions i).mSendBuffer.getContiguousBytes, ?_, ?_, ?_, ?_⟩
      · rw [hbuffer]
        exact henq
      · rw [hwire, htrans, hzero, List.take_zero, List.append_nil, hbuffer]
        exact congrArg (removed ++ ·) hpend
      · rw [hbuffer, CircularBuffer.length_contents]
        exact hple
      · intro _
        rw [hsends', hfree hready, if_neg hready.2]
        simp [ClientSession.pending]
  | failed _ hwire hsends' =>
      obtain ⟨removed, posted, henq, htrans, hle, hsends⟩ := h
      refine ⟨removed, posted, ?_, ?_, ?_, ?_⟩
      · rw [hbuffer]
        exact henq
      · rw [hwire, hbuffer]
        exact htrans
      · rw [hbuffer]
        exact hle
      · intro hc
        rw [hsends']
        exact hsends (hconn hc)

/-- Without a connection nobody looks at the outstanding sends any more. -/
theorem hungUp (h : HasLine w i packets) (htrans : w'.os.transmitted i = w.os.transmitted i)
    (hbuffer : (w'.sessions i).mSendBuffer = (w.sessions i).mSendBuffer)
    (hdisc : (w'.sessions i).mConnected = false) : HasLine w' i packets := by
  obtain ⟨removed, posted, henq, htrans', hle, -⟩ := h
  refine ⟨removed, posted, ?_, ?_, ?_, fun hc => ?_⟩
  · rw [hbuffer]
    exact henq
  · rw [htrans, hbuffer]
    exact htrans'
  · rw [hbuffer]
    exact hle
  · rw [hdisc] at hc
    cases hc

/-- A send completes with all its bytes, or the session is hung up. -/
theorem completed (h : HasLine w i packets) (hv : (w.sessions i).mSendBuffer.Valid)
    {post : SendPost} (howner : post.owner = i) (hpost : post ∈ w.os.sends) {dwError : Bool}
    {cbTransferred : Nat}
    (hwhole : (w.sessions i).mConnected = true →
      (dwError = false ∧ cbTransferred = post.len) ∨
        ((w.sendCompletion post dwError cbTransferred).sessions i).mConnected = false) :
    HasLine (w.sendCompletion post dwError cbTransferred) i packets := by
  subst howner
  have hself : (w.sendCompletion post dwError cbTransferred).sessions post.owner
      = ((w.sessions post.owner).sendCompletion dwError cbTransferred
        { w.os with sends := w.os.sends.erase post }).1 := World.sessions_put_self w post.owner _
  have hunsent := World.unsent_sendCompletion w post dwError cbTransferred
  have htrans : (w.sendCompletion post dwError cbTransferred).os.transmitted post.owner
      = w.os.transmitted post.owner := hunsent.transmitted post.owner
  cases hc : (w.sessions post.owner).mConnected with
  | false =>
      have heq : (w.sessions post.owner).sendCompletion dwError cbTransferred
          { w.os with sends := w.os.sends.erase post } = _ := if_neg (by
        rw [ClientSession.decRefCount, hc]
        exact Bool.false_ne_true)
      rw [heq] at hself
      refine h.hungUp htrans ?_ ?_
      · rw [hself]
        rfl
      · rw [hself]
        exact hc
  | true =>
      rcases hwhole hc with ⟨rfl, rfl⟩ | hdisc
      · obtain ⟨removed, posted, henq, htrans', hle, hsends⟩ := h
        -- the post is the one outstanding send, and it carries all of what is posted
        have hmem : post ∈ w.os.sendsOf post.owner :=
          List.mem_filter.mpr ⟨hpost, decide_eq_true rfl⟩
        obtain ⟨hone, hlen, hne⟩ : w.os.sendsOf post.owner = [post] ∧ post.len = posted ∧
            posted ≠ 0 := by
          have hlens := hsends hc
          split at hlens
          · rw [List.map_eq_nil_iff.mp hlens] at hmem
            cases hmem
          next hne =>
            obtain ⟨p, hp, hplen⟩ := List.map_eq_singleton_iff.mp hlens
            rw [hp, List.mem_singleton] at hmem
            obtain rfl : p = post := hmem.symm
            exact ⟨hp, hplen, hne⟩
        have heq : (w.sessions post.owner).sendCompletion false post.len
            { w.os with sends := w.os.sends.erase post }
            = ((w.sessions post.owner).decRefCount.onWriteComplete post.len,
              { w.os with sends := w.os.sends.erase post }) := by
          simp [ClientSession.sendCompletion, ClientSession.decRefCount, hc, hlen, hne]
        obtain ⟨-, hcontents, -⟩ := CircularBuffer.remove_spec hv post.len
        have hdrop :
            ((w.sendCompletion post false post.len).sessions post.owner).mSendBuffer.contents
              = (w.sessions post.owner).mSendBuffer.contents.drop post.len := by
          rw [hself, heq]
          exact hcontents
        refine ⟨removed ++ (w.sessions post.owner).mSendBuffer.contents.take post.len, 0, ?_, ?_,
          Nat.zero_le _, fun _ => ?_⟩
        · rw [henq, hdrop, List.append_assoc, List.take_append_drop]
        · rw [htrans, htrans', hlen, List.take_zero, List.append_nil]
        · rw [hunsent.sendsOf, Os.sendsOf_erase rfl, if_pos rfl]
          show (List.erase (w.os.sendsOf post.owner) post).map _ = []
          rw [hone, List.erase_cons_head]
          rfl
      · refine h.hungUp htrans ?_ hdisc
        rcases (w.sessions post.owner).sendCompletion_cases dwError cbTransferred
          { w.os with sends := w.os.sends.erase post } with heq | heq | heq
        · rw [hself, heq]
          rfl
        · rw [hself, heq]
          exact World.blind_disconnect ClientSession.blind_mSendBuffer _ _
        · rw [hself, heq] at hdisc
          cases hc.symm.trans hdisc

end HasLine

theorem OutPacket.stream_singleton (pkt : OutPacket) : stream [pkt] = pkt.toBytes :=
  List.append_nil _

namespace Server

variable {st st' : Server} {i : SessionId} {packets more : List OutPacket}

-- ============================================================================
-- What a step puts into a send buffer
-- ============================================================================

/-- Where the packets come from that a step puts into a session's send buffer. -/
structure Gets (st st' : Server) (i : SessionId) (more : List OutPacket) : Prop where
  connected : more ≠ [] → (st.world.sessions i).mConnected = true
  /-- A login result is for the player the session now is; all else is broadcast. -/
  origin : ∀ p ∈ more,
    (∃ q, p = .loginResult q ∧ (playOf st'.world.trace i).player = some q.mPlayerId) ∨
      ∃ sender, (sender, p) ∈ st'.world.broadcasts
  /-- Who gets a broadcast is there, and who stays gets every broadcast. -/
  order : ∃ sent, st'.world.broadcasts = st.world.broadcasts ++ sent ∧
    (more.filter OutPacket.isRelayed ≠ [] →
      Present i st ∧ more.filter OutPacket.isRelayed = sent.map Prod.snd) ∧
    (more.filter OutPacket.isRelayed = [] → Present i st' → sent = [])
  /-- A login result is for a login. -/
  told : ∃ pids, logins st'.world.trace i = logins st.world.trace i ++ pids ∧
    (more.filterMap OutPacket.login).Sublist pids

/-- Without a login result nothing is told. -/
theorem told_of_grows (hgrows : ∃ ns, st'.world.trace = st.world.trace ++ ns)
    (hmore : more.filterMap OutPacket.login = []) :
    ∃ pids, logins st'.world.trace i = logins st.world.trace i ++ pids ∧
      (more.filterMap OutPacket.login).Sublist pids := by
  obtain ⟨ns, htrace⟩ := hgrows
  refine ⟨logins ns i, ?_, ?_⟩
  · rw [htrace, logins_append]
  · rw [hmore]
    exact List.nil_sublist _

theorem gets_nothing (hgrows : ∃ ns, st'.world.trace = st.world.trace ++ ns)
    (hcasts : st'.world.broadcasts = st.world.broadcasts) : Gets st st' i [] where
  connected hne := absurd rfl hne
  origin p hp := absurd hp List.not_mem_nil
  order := ⟨[], by rw [hcasts, List.append_nil], fun hne => absurd rfl hne, fun _ _ => rfl⟩
  told := told_of_grows hgrows rfl

/-- A step leaves a session's send buffer alone. -/
theorem fed_nothing (hgrows : ∃ ns, st'.world.trace = st.world.trace ++ ns)
    (hbuffered : st'.buffered i = st.buffered i)
    (hcasts : st'.world.broadcasts = st.world.broadcasts) :
    ∃ more, st'.buffered i = st.buffered i ++ stream more ∧ Gets st st' i more := by
  refine ⟨[], ?_, gets_nothing hgrows hcasts⟩
  rw [hbuffered]
  exact (List.append_nil _).symm

/-- `LoginDone` offers the session a login result with what it has stored. -/
theorem contents_loginDone {w : World} (hv : w.SendValid) (this : SessionId) (pid : Int32)
    (x y : CFloat) (name : CString maxNameLen) :
    ∃ q : LoginResult, q.mPlayerId = pid ∧
      (q.mPosX = x ∧ q.mPosY = y ∧ q.mName.text = name.text) ∧ ∀ i,
      ((w.loginDone this pid x y name).sessions i).mSendBuffer.contents
        = (w.sessions i).mSendBuffer.contents ++
          if i = this ∧ (w.sessions this).accepts (.loginResult q) = true then
            (OutPacket.loginResult q).toBytes else [] := by
  unfold World.loginDone
  extract_lets w₁ outPacket w₂ w₃
  have hblind := ClientSession.blind_mSendBuffer
  have hmade : World.Fixes ClientSession.mSendBuffer w w₁ := World.fixes_put rfl
  have hrest : World.Fixes ClientSession.mSendBuffer w₂ ((w₃.onTick this).onDbUpdate this) :=
    (World.fixes_put rfl).trans
      ((World.fixes_onTick hblind w₃ this).trans (World.fixes_onDbUpdate hblind _ this))
  have haccepts : (w₁.sessions this).accepts (.loginResult outPacket)
      = (w.sessions this).accepts (.loginResult outPacket) := by
    rw [World.sessions_modify_self]
    rfl
  refine ⟨outPacket, rfl, ⟨rfl, rfl, CString.text_copy _ name⟩, fun i => ?_⟩
  rw [hrest i, ← hmade i, World.contents_sendRequest (hv.fixed hmade) this _ i, haccepts]
  by_cases hi : i = this
  · simp only [hi, true_and, if_true]
  · simp only [hi, false_and, if_false]

theorem gets_login {client : SessionId} {pid : Int32} {x y : CFloat} {name : CString maxNameLen}
    (hv : st.world.SendValid) (hworld : st'.world = st.world.loginDone client pid x y name)
    (i : SessionId) : ∃ more, st'.buffered i = st.buffered i ++ stream more ∧
      Gets st st' i more := by
  have hcasts : st'.world.broadcasts = st.world.broadcasts := by
    rw [hworld]
    refine (World.broadcasts_append (World.loggedIn_loginDone ..).trace).trans ?_
    exact List.append_nil _
  have htrace : st'.world.trace = st.world.trace ++ [.loginDone client pid] :=
    (World.loggedIn_of_eq hworld).trace
  obtain ⟨q, hq, -, hcontents⟩ := contents_loginDone hv client pid x y name
  have hbuffered := hcontents i
  rw [← hworld] at hbuffered
  by_cases htaken : i = client ∧ (st.world.sessions client).accepts (.loginResult q) = true
  · rw [if_pos htaken, ← OutPacket.stream_singleton] at hbuffered
    obtain ⟨rfl, haccepts⟩ := htaken
    refine ⟨[.loginResult q], hbuffered, fun _ => ?_, ?_, ⟨[], ?_, ?_⟩, [pid], ?_, ?_⟩
    · rw [ClientSession.accepts, Bool.and_eq_true] at haccepts
      exact haccepts.1
    · intro p hp
      refine Or.inl ⟨q, List.mem_singleton.mp hp, ?_⟩
      rw [playOf_loggedIn (World.loggedIn_of_eq hworld)]
      split
      next => exact congrArg some hq.symm
      next hnot =>
        by_contra hne
        exact hnot ⟨rfl, fun hsame => hne (hsame.trans (congrArg some hq.symm))⟩
    · rw [hcasts, List.append_nil]
    · exact ⟨fun hne => absurd rfl hne, fun _ _ => rfl⟩
    · rw [htrace, logins_append]
      simp [logins]
    · rw [← hq]
      exact List.Sublist.refl _
  · rw [if_neg htaken, List.append_nil] at hbuffered
    exact fed_nothing ⟨_, htrace⟩ hbuffered hcasts

/-- Who is registered stays so while the world evolves. -/
theorem isListed_relay (w : World) (this : SessionId) (pkt : OutPacket) (i : SessionId) :
    (w.relay this pkt).IsListed i ↔ w.IsListed i := by
  unfold World.IsListed
  rw [(World.calm_relay w this pkt).mClientList]

theorem gets_relayed {this : SessionId} {w : World} {pkt : OutPacket}
    (hr : system.Reachable st) (hregistered : Registered st.world) (hlinger : LingerSet st .read)
    (hpkt : ∀ p, pkt ≠ .loginResult p) (hprep : World.Prepares st.world w)
    (hthread : st.clientThread = .reading this)
    (hbody : World.onReadBody this st.world = .again st'.world)
    (hrelay : st'.world = w.relay this pkt)
    (hgrows : ∃ ns, st'.world.trace = st.world.trace ++ ns) (i : SessionId) :
    ∃ more, st'.buffered i = st.buffered i ++ stream more ∧ Gets st st' i more := by
  have hrel := relaying_of_relayed hr hlinger hprep hthread hbody hrelay
  have hrelayed := OutPacket.isRelayed_of_ne hpkt
  by_cases hi : i = this ∨ ((st.world.sessions this).accepts pkt = true ∧ st.world.IsListed i)
  · obtain ⟨hconn', hcontents⟩ := hrel.offered i hi
    cases htaken : (st.world.sessions i).accepts pkt with
    | true =>
        rw [htaken, if_pos rfl, ← OutPacket.stream_singleton] at hcontents
        have hconn : (st.world.sessions i).mConnected = true := by
          rw [ClientSession.accepts, Bool.and_eq_true] at htaken
          exact htaken.1
        have hsender : (st.world.sessions this).accepts pkt = true := by
          rcases hi with rfl | hi
          · exact htaken
          · exact hi.1
        have hcasts := hrel.broadcasts
        rw [hsender, if_pos rfl] at hcasts
        refine ⟨[pkt], hcontents, fun _ => hconn, ?_, ⟨_, hcasts, ?_⟩, told_of_grows hgrows ?_⟩
        · intro p hp
          refine Or.inr ⟨this, ?_⟩
          rw [hcasts, List.mem_singleton.mp hp]
          exact List.mem_append_right _ List.mem_cons_self
        · rw [List.filter_singleton, hrelayed]
          exact ⟨fun _ => ⟨⟨⟨_, hregistered i hconn⟩, hconn⟩, rfl⟩,
            fun hnil => absurd hnil (List.cons_ne_nil _ _)⟩
        · cases pkt with
          | loginResult q => exact absurd rfl (hpkt q)
          | _ => rfl
    | false =>
        rw [htaken, if_neg Bool.false_ne_true, List.append_nil] at hcontents
        rw [htaken] at hconn'
        refine ⟨[], ?_, fun hne => absurd rfl hne, fun p hp => absurd hp List.not_mem_nil,
          ⟨_, hrel.broadcasts, fun hne => absurd rfl hne, fun _ hpresent => ?_⟩,
          told_of_grows hgrows rfl⟩
        · rw [buffered, hcontents]
          exact (List.append_nil _).symm
        · cases hconn'.symm.trans hpresent.2
  · have hbuffered := hrel.others i hi
    refine ⟨[], ?_, fun hne => absurd rfl hne, fun p hp => absurd hp List.not_mem_nil, ⟨_,
      hrel.broadcasts, fun hne => absurd rfl hne, fun _ hpresent => ?_⟩, told_of_grows hgrows rfl⟩
    · rw [hbuffered]
      exact (List.append_nil _).symm
    · -- whoever is registered would have been offered what the sender took
      rw [if_neg]
      intro hsender
      refine hi (Or.inr ⟨hsender, ?_⟩)
      have hlisted := hpresent.1
      rw [hrelay, isListed_relay] at hlisted
      obtain ⟨k, hk⟩ := hlisted
      rw [hprep.mClientList] at hk
      exact ⟨k, hk⟩

theorem gets_step {a : Event} (hr : system.Reachable st) (hregistered : Registered st.world)
    (hlinger : LingerSet st a) (hstep : st.step a = some st') (i : SessionId)
    (hi : ∀ sendMem recvMem, a = .takeAccepted sendMem recvMem → i ≠ st.world.next)
    (hsent : ∀ post dwError cbTransferred, a ≠ .sendCompletion post dwError cbTransferred) :
    ∃ more, st'.buffered i = st.buffered i ++ stream more ∧ Gets st st' i more := by
  have hv := sendValid_of_reachable hr
  have hgrows := trace_step hstep
  cases step_enqueues hv hstep with
  | same _ hbuffers hcasts =>
      exact fed_nothing hgrows (congrArg CircularBuffer.contents (hbuffers i)) hcasts
  | take sendMem recvMem hbuffers hcasts =>
      have hbuffer := hbuffers i
      rw [if_neg (hi sendMem recvMem rfl)] at hbuffer
      exact fed_nothing hgrows (congrArg CircularBuffer.contents hbuffer) hcasts
  | sent post dwError cbTransferred => exact absurd rfl (hsent post dwError cbTransferred)
  | login _ _ _ _ _ _ hcasts =>
      cases step_moves hstep with
      | dispatchNone => exact fed_nothing hgrows rfl rfl
      | dispatchJob t q w _ _ _ hw =>
          rcases World.dispatchDatabaseJobResult_cases hw with
            rfl | ⟨client, login, -, -, -, -, -, heq⟩
          · exact fed_nothing hgrows rfl rfl
          · exact gets_login hv heq i
  | relayed this w pkt hpkt hprep hthread hbody hrelay =>
      exact gets_relayed hr hregistered hlinger hpkt hprep hthread hbody hrelay hgrows i

-- ============================================================================
-- The conditions
-- ============================================================================

/-- No flush reaches `WSASend` for a session that has a send outstanding. -/
def NoOverlap (st : Server) : Event → Prop
  | .flush => ∀ i, st.world.IsListed i → (st.world.sessions i).Ready →
      st.world.os.sendsOf i = []
  | _ => True

/-- A send of a connected session completes with all its bytes, or the session
    is hung up. -/
def WholeSends (st : Server) : Event → Prop
  | .sendCompletion post dwError cbTransferred =>
      (st.world.sessions post.owner).mConnected = true →
        (dwError = false ∧ cbTransferred = post.len) ∨
          ((st.world.sendCompletion post dwError cbTransferred).sessions post.owner).mConnected
            = false
  | _ => True

/-- What a run must not do for every client to be served. -/
structure Orderly (st : Server) (a : Event) : Prop where
  noOverlap : NoOverlap st a
  wholeSends : WholeSends st a
  lingerSet : LingerSet st a
  namesSomebody : NamesSomebody st a
  takesUnlisted : TakesUnlisted st a

-- ============================================================================
-- Every line in every run
-- ============================================================================

/-- What has been broadcast, oldest first. -/
def casts (st : Server) : List OutPacket := st.world.broadcasts.map Prod.snd

/-- A session's packets.  Its chats and moves are the broadcasts from that one
    on, all of them as long as the session is there. -/
structure Served (st : Server) (i : SessionId) (since : Nat) (packets : List OutPacket) :
    Prop where
  line : HasLine st.world i packets
  unused : st.world.next ≤ i → packets = []
  named : ∀ p ∈ packets, p.mPlayerId ≠ -1
  since_le : since ≤ st.casts.length
  inOrder : packets.filter OutPacket.isRelayed <+: st.casts.drop since
  upToDate : Present i st → packets.filter OutPacket.isRelayed = st.casts.drop since
  told : (packets.filterMap OutPacket.login).Sublist (logins st.world.trace i)

namespace Served

variable {since : Nat}

/-- The first of its packets hold the first of these broadcasts. -/
theorem heard_prefix {handled rest : List OutPacket} (h : Served st i since (handled ++ rest)) :
    handled.filter OutPacket.isRelayed <+: st.casts.drop since := by
  have horder := h.inOrder
  rw [List.filter_append] at horder
  exact (List.prefix_append _ _).trans horder

/-- None is missed in between. -/
theorem heard_infix {handled rest : List OutPacket} (h : Served st i since (handled ++ rest)) :
    handled.filter OutPacket.isRelayed <:+: st.casts :=
  h.heard_prefix.isInfix.trans (List.drop_suffix since _).isInfix

/-- Who is there has the last one. -/
theorem isSuffix (h : Served st i since packets) (hpresent : Present i st) :
    packets.filter OutPacket.isRelayed <:+ st.casts := by
  rw [h.upToDate hpresent]
  exact List.drop_suffix since _

end Served

/-- Nobody is registered but the session a step creates. -/
theorem isListed_step {a : Event} (hsound : Sound st) (hstep : st.step a = some st')
    (h : st'.world.IsListed i) : st.world.IsListed i ∨ i = st.world.next := by
  obtain ⟨k, hk⟩ := h
  cases step_change hstep with
  | accept sock _ hworld =>
      rw [hworld] at hk
      exact Or.inl ⟨k, hk⟩
  | take sendMem recvMem sock _ hev =>
      rw [hev.mClientList, mClientList_connectClient] at hk
      split at hk
      · exact Or.inr (Option.some.inj hk).symm
      · exact Or.inl ⟨k, hk⟩
  | period currTick hworld =>
      rw [hworld] at hk
      obtain ⟨ds, hc | heq⟩ := World.onPeriodWork_spec hsound.keyed currTick
      · exact Or.inl ⟨k, ((hc.mClientList_eq_some_iff hsound.keyed k i).mp hk).1⟩
      · rw [heq] at hk
        exact Or.inl ⟨k, hk⟩
  | evolve _ hev =>
      rw [hev.mClientList] at hk
      exact Or.inl ⟨k, hk⟩

/-- Nobody comes back, and only the next session comes. -/
theorem present_step {a : Event} (hsound : Sound st) (hstep : st.step a = some st')
    (h : Present i st') : Present i st ∨ i = st.world.next := by
  rcases isListed_step hsound hstep h.1 with hlisted | hnew
  · rcases mConnected_step hstep hsound.keyed h.2 with hconn | ⟨hnew, -⟩
    · exact Or.inl ⟨hlisted, hconn⟩
    · exact Or.inr hnew
  · exact Or.inr hnew

theorem next_le_step {a : Event} (hsound : Sound st) (hstep : st.step a = some st') :
    st.world.next ≤ st'.world.next := by
  cases step_change hstep with
  | accept sock _ hworld =>
      rw [hworld]
  | take sendMem recvMem sock _ hev =>
      rw [hev.next]
      exact Nat.le_succ _
  | period currTick hworld =>
      rw [hworld]
      obtain ⟨ds, hc | heq⟩ := World.onPeriodWork_spec hsound.keyed currTick
      · rw [hc.next]
      · rw [heq]
  | evolve _ hev => rw [hev.next]

/-- What is handed over and completed is handed over in flushes and completed
    in completions. -/
theorem unsent_step {a : Event} (hstep : st.step a = some st') (hflush : a ≠ .flush)
    (hsent : ∀ post dwError cbTransferred, a ≠ .sendCompletion post dwError cbTransferred) :
    st.world.os.Unsent st'.world.os := by
  cases step_moves hstep with
  | takeAccepted sendMem recvMem sock =>
      rw [World.acceptClient_eq]
      exact World.unsent_recvExit (st.world.connectClient sock sendMem recvMem) _
  | flush => exact absurd rfl hflush
  | recvCompletion post dwError data => exact World.unsent_recvCompletion _ post dwError data
  | readAgain this w _ _ hbody => exact World.unsent_onReadBody hbody
  | readLeave this w _ _ hbody =>
      exact (World.unsent_onReadBody_leave hbody).trans (World.unsent_recvExit w this)
  | sendCompletion post dwError cbTransferred =>
      exact absurd rfl (hsent post dwError cbTransferred)
  | taskRun w _ _ htask =>
      rw [World.os_doTask htask]
      exact .refl _
  | period currTick =>
      rw [World.os_onPeriodWork]
      exact .refl _
  | dispatchJob t q w _ _ _ hw =>
      rcases World.dispatchDatabaseJobResult_cases hw with
        rfl | ⟨client, login, -, -, -, -, -, heq⟩
      · exact .refl _
      · rw [heq]
        exact World.unsent_loginDone _ client _ _ _ _
  | _ => exact ⟨rfl, rfl⟩

/-- A new session's line begins with nothing. -/
theorem hasLine_begin {sendMem recvMem : Nat → UInt8} (hr : system.Reachable st)
    (hline : HasLine st.world st.world.next [])
    (hstep : st.step (.takeAccepted sendMem recvMem) = some st') :
    HasLine st'.world st.world.next [] := by
  have hsound := sound_of_reachable hr
  have hunsent := unsent_step hstep nofun nofun
  obtain ⟨removed, posted, henq, htrans, hle, -⟩ := hline
  obtain ⟨hremoved, hempty⟩ := List.append_eq_nil_iff.mp henq.symm
  rw [hempty] at htrans hle
  have hbuffer : (st'.world.sessions st.world.next).mSendBuffer.contents = [] := by
    cases step_enqueues (sendValid_of_reachable hr) hstep with
    | same _ hbuffers =>
        rw [hbuffers]
        exact hempty
    | take _ _ hbuffers =>
        rw [hbuffers, if_pos rfl]
        exact CircularBuffer.contents_new BUFSIZE sendMem
  -- nothing is outstanding for a session that does not exist yet
  have hnone : st.world.os.sendsOf st.world.next = [] := by
    by_contra hne
    obtain ⟨p, hp⟩ := List.exists_mem_of_ne_nil _ hne
    obtain ⟨hmem, howner⟩ := List.mem_filter.mp hp
    have hpos : 0 < st.world.os.sends.countP (fun p => p.owner = st.world.next) :=
      List.countP_pos_iff.mpr ⟨p, hmem, howner⟩
    have hlt := (hsound.held st.world.next (by rw [World.held, Os.posted]; omega)).1
    exact Nat.lt_irrefl _ hlt
  refine ⟨[], 0, ?_, ?_, Nat.zero_le _, fun _ => ?_⟩
  · rw [hbuffer]
    rfl
  · rw [hunsent.transmitted, htrans, hremoved, List.take_nil]
    rfl
  · rw [hunsent.sendsOf, hnone]
    rfl

/-- A line goes on with what its session gets. -/
theorem hasLine_step {a : Event} (hr : system.Reachable st) (hok : Orderly st a)
    (hregistered : Registered st.world) (hstep : st.step a = some st') {since : Nat}
    (h : Served st i since packets) :
    ∃ more, HasLine st'.world i (packets ++ more) ∧ Gets st st' i more := by
  have hsound := sound_of_reachable hr
  have hv := sendValid_of_reachable hr
  have hquiet : HasLine st'.world i packets → st'.world.trace = st.world.trace →
      ∃ more, HasLine st'.world i (packets ++ more) ∧ Gets st st' i more := by
    intro hline htrace
    refine ⟨[], ?_, gets_nothing (trace_step hstep) (World.broadcasts_congr htrace)⟩
    rw [List.append_nil]
    exact hline
  by_cases hflush : a = .flush
  · subst hflush
    cases step_moves hstep with
    | flush =>
        refine hquiet ?_ (World.steady_flushClientSend _).trace
        obtain ⟨hlisted, hunlisted⟩ := World.flushed_flushClientSend hsound.keyed i
        by_cases hi : st.world.IsListed i
        · exact h.line.flushed (hv i) (hlisted hi)
            (World.fixes_flushClientSend ClientSession.blind_mSendBuffer _ i)
            ((World.evolves_flushClientSend _).mConnected i) (hok.noOverlap i hi)
        · exact h.line.untouched (hunlisted hi)
  by_cases hsent : ∃ post dwError cbTransferred, a = .sendCompletion post dwError cbTransferred
  · obtain ⟨post, dwError, cbTransferred, rfl⟩ := hsent
    cases step_moves hstep with
    | sendCompletion _ _ _ apcRan _ _ hpost =>
        refine hquiet ?_ (World.steady_sendCompletion _ post dwError cbTransferred).trace
        by_cases howner : post.owner = i
        · refine h.line.completed (hv i) howner hpost ?_
          subst howner
          exact hok.wholeSends
        · exact h.line.untouched (World.untouched_sendCompletion _ howner _ _)
  have hsent' : ∀ post dwError cbTransferred, a ≠ .sendCompletion post dwError cbTransferred :=
    fun post dwError cbTransferred heq => hsent ⟨post, dwError, cbTransferred, heq⟩
  by_cases hi : ∀ sendMem recvMem, a = .takeAccepted sendMem recvMem → i ≠ st.world.next
  · obtain ⟨more, hbuffered, hgets⟩ := gets_step hr hregistered hok.lingerSet hstep i hi hsent'
    refine ⟨more, h.line.enqueue (unsent_step hstep hflush hsent') hbuffered (fun hc => ?_), hgets⟩
    rcases mConnected_step hstep hsound.keyed hc with hc | ⟨heq, sendMem, recvMem, htake⟩
    · exact hc
    · exact absurd heq (hi sendMem recvMem htake)
  · -- the session begins
    simp only [not_forall, not_not] at hi
    obtain ⟨sendMem, recvMem, rfl, rfl⟩ := hi
    have hnone := h.unused (Nat.le_refl _)
    subst hnone
    refine hquiet (hasLine_begin hr h.line hstep) ?_
    cases step_moves hstep with
    | takeAccepted _ _ sock =>
        rw [World.acceptClient_eq]
        exact (World.steady_recvExit _ st.world.next).trace

/-- When it was broadcast, a packet was its sender's. -/
theorem Spoken.inItsName_of_mem {w : World} (h : Spoken w) {sender : SessionId} {pkt : OutPacket}
    (hcast : (sender, pkt) ∈ w.broadcasts) :
    ∃ before after, w.trace = before ++ after ∧
      (playOf before sender).player = some pkt.mPlayerId ∧ pkt.mPlayerId ≠ -1 := by
  obtain ⟨n, hn, heq⟩ := List.mem_filterMap.mp hcast
  obtain rfl : n = .broadcast sender pkt := by
    cases n with
    | broadcast i p => cases heq; rfl
    | _ => cases heq
  obtain ⟨before, after, htrace⟩ := List.append_of_mem hn
  exact ⟨before, _, htrace, h.inItsName before _ after htrace sender pkt rfl⟩

/-- What has been broadcast has been somebody's. -/
theorem Spoken.mPlayerId_ne {w : World} (h : Spoken w) {sender : SessionId} {pkt : OutPacket}
    (hcast : (sender, pkt) ∈ w.broadcasts) : pkt.mPlayerId ≠ -1 := by
  obtain ⟨_, _, -, -, hne⟩ := h.inItsName_of_mem hcast
  exact hne

/-- Where a session's broadcasts begin, a step later: a session that was not
    there has missed all so far. -/
def sinceAfter (st st' : Server) (i : SessionId) (since : Nat) : Nat :=
  if i < st.world.next then since else st'.casts.length

theorem Served.step {a : Event} {since : Nat} (h : Served st i since packets)
    (hr : system.Reachable st) (hok : Orderly st a) (hregistered : Registered st.world)
    (hspoken : Spoken st'.world) (hstep : st.step a = some st') :
    ∃ more, Served st' i (sinceAfter st st' i since) (packets ++ more) := by
  have hsound := sound_of_reachable hr
  obtain ⟨more, hline, hgets⟩ := hasLine_step hr hok hregistered hstep h
  obtain ⟨sent, hcasts, hthere, hevery⟩ := hgets.order
  have hcasts' : st'.casts = st.casts ++ sent.map Prod.snd := by
    rw [casts, hcasts, List.map_append]
    rfl
  -- a session that is not there yet gets nothing
  have hnothing : st.world.next ≤ i → packets ++ more = [] := by
    intro hi
    rw [h.unused hi, List.nil_append]
    by_contra hne
    exact absurd (hsound.unused i (hgets.connected hne)) (Nat.not_lt.mpr hi)
  have hunused : st'.world.next ≤ i → packets ++ more = [] :=
    fun hi => hnothing (Nat.le_trans (next_le_step hsound hstep) hi)
  have hnamed : ∀ p ∈ packets ++ more, p.mPlayerId ≠ -1 := by
    intro p hp
    rcases List.mem_append.mp hp with hp | hp
    · exact h.named p hp
    · rcases hgets.origin p hp with ⟨q, rfl, hplayer⟩ | ⟨sender, hcast⟩
      · exact hspoken.somebody i q.mPlayerId hplayer
      · exact hspoken.mPlayerId_ne hcast
  have htold : ((packets ++ more).filterMap OutPacket.login).Sublist
      (logins st'.world.trace i) := by
    obtain ⟨pids, hlogins, htold⟩ := hgets.told
    rw [List.filterMap_append, hlogins]
    exact h.told.append htold
  by_cases hi : i < st.world.next
  · have hdrop : st'.casts.drop since = st.casts.drop since ++ sent.map Prod.snd := by
      rw [hcasts', List.drop_append_of_le_length h.since_le]
    have hle : since ≤ st'.casts.length := by
      rw [hcasts', List.length_append]
      exact Nat.le_trans h.since_le (Nat.le_add_right _ _)
    rw [sinceAfter, if_pos hi]
    refine ⟨more, hline, hunused, hnamed, hle, ?_, fun hpresent => ?_, htold⟩
    · rw [List.filter_append, hdrop]
      by_cases hmore : more.filter OutPacket.isRelayed = []
      · rw [hmore, List.append_nil]
        exact h.inOrder.trans (List.prefix_append _ _)
      · obtain ⟨hpresent, hsame⟩ := hthere hmore
        rw [h.upToDate hpresent]
        exact (List.prefix_append_right_inj _).mpr (hsame ▸ List.prefix_rfl)
    · have hbefore : Present i st := by
        rcases present_step hsound hstep hpresent with hbefore | rfl
        · exact hbefore
        · exact absurd hi (Nat.lt_irrefl _)
      rw [List.filter_append, hdrop, h.upToDate hbefore]
      by_cases hmore : more.filter OutPacket.isRelayed = []
      · rw [hmore, hevery hmore hpresent, List.map_nil]
      · rw [(hthere hmore).2]
  · have hempty := hnothing (Nat.not_lt.mp hi)
    have hdrop : st'.casts.drop st'.casts.length = [] := List.drop_length
    rw [sinceAfter, if_neg hi]
    refine ⟨more, hline, hunused, hnamed, Nat.le_refl _, ?_, fun _ => ?_, htold⟩
    · rw [hempty]
      exact List.nil_prefix
    · rw [hempty, hdrop]
      rfl

theorem served_new (tick : UInt32) (answers : Nat → Bool) (players : Players) (i : SessionId) :
    Served (new tick answers players) i 0 [] := by
  have hempty : ((new tick answers players).world.sessions i).mSendBuffer.contents = [] :=
    CircularBuffer.contents_new BUFSIZE _
  refine ⟨⟨[], 0, ?_, ?_, Nat.zero_le _, fun _ => rfl⟩, fun _ => rfl,
    fun p hp => absurd hp List.not_mem_nil, Nat.zero_le _, List.nil_prefix, fun _ => rfl,
    List.nil_sublist _⟩
  · rw [hempty]
    rfl
  · rw [hempty]
    rfl

/-- What has been handed over is not taken back. -/
theorem transmitted_step {a : Event} (hsound : Sound st) (hstep : st.step a = some st')
    (i : SessionId) : st.world.os.transmitted i <+: st'.world.os.transmitted i := by
  by_cases hflush : a = .flush
  · subst hflush
    cases step_moves hstep with
    | flush =>
        obtain ⟨hlisted, hunlisted⟩ := World.flushed_flushClientSend hsound.keyed i
        show _ <+: st.world.flushClientSend.os.transmitted i
        by_cases hi : st.world.IsListed i
        · cases hlisted hi with
          | idle _ hsame =>
              exact hsame.transmitted ▸ List.prefix_rfl
          | posted _ _ hwire =>
              rw [hwire]
              exact List.prefix_append _ _
          | failed _ hwire =>
              exact hwire ▸ List.prefix_rfl
        · exact (hunlisted hi).transmitted ▸ List.prefix_rfl
  · by_cases hsent : ∃ post dwError cbTransferred, a = .sendCompletion post dwError cbTransferred
    · obtain ⟨post, dwError, cbTransferred, rfl⟩ := hsent
      cases step_moves hstep with
      | sendCompletion =>
          have hunsent := World.unsent_sendCompletion st.world post dwError cbTransferred
          exact hunsent.transmitted i ▸ List.prefix_rfl
    · have hunsent := unsent_step hstep hflush
        (fun post dwError cbTransferred heq => hsent ⟨post, dwError, cbTransferred, heq⟩)
      exact hunsent.transmitted i ▸ List.prefix_rfl

end Server

end EasyGameServer
