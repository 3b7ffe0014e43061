/-
  EasyGameServer.Crowd.Words

  What the dummies hear of each other.  The server broadcasts what a session's
  packets ask for, in their order and unchanged, as long as they are in the name
  of the session's player; a dummy asks for nothing before it has been logged
  in, and always in its own name.  So what any dummy hears of another is part of
  what that one has sent, with nothing left out, doubled or exchanged.
-/

import EasyGameServer.Crowd.Places

namespace EasyGameServer

open Lib

/-- A chat's text, or where somebody walks. -/
inductive Words where
  | chat (id : Int32) (text : List UInt8)
  | move (id : Int32) (x y : CFloat)
deriving DecidableEq

def OutPacket.words : OutPacket → Option Words
  | .loginResult _ => none
  | .chatBroadcastResult q => some (.chat q.mPlayerId q.mChat.text)
  | .moveBroadcastResult q => some (.move q.mPlayerId q.mPosX q.mPosY)

namespace World

variable {w w' : World} {this i : SessionId} {r : Registered} {bytes : List UInt8}
  {rest : CircularBuffer}

/-- What the handler is to broadcast. -/
def Registered.words : Registered → List UInt8 → Option Words
  | .login, _ => none
  | .chat, bytes =>
      some (.chat (claimedPlayerId bytes)
        ((ChatBroadcastRequest.ofBytes bytes).mChat.bytes.takeWhile (· ≠ 0)))
  | .move, bytes =>
      some (.move (claimedPlayerId bytes) (MoveRequest.ofBytes bytes).mPosX
        (MoveRequest.ofBytes bytes).mPosY)

/-- What a client's packet is to have broadcast. -/
def wordsAsked (bytes : List UInt8) : Option Words :=
  (registered? (PacketHeader.ofBytes bytes).mType).bind (fun r => r.words bytes)

/-- What a session's packets were to have broadcast. -/
def asked (w : World) (i : SessionId) : List Words := (w.parsedBy i).filterMap wordsAsked

/-- What a session has broadcast. -/
def said (w : World) (i : SessionId) : List Words :=
  w.broadcasts.filterMap (fun cast => if cast.1 = i then cast.2.words else none)

/-- A handler has read one packet. -/
theorem Heard.parsedBy (h : Heard w w' this r bytes) (i : SessionId) :
    w'.parsedBy i = w.parsedBy i ++ if i = this then [bytes] else [] := by
  obtain ⟨ns, htrace, hns⟩ := h.trace
  have hrest : World.parsedBy { w with trace := ns } i = [] := by
    refine List.filterMap_eq_nil_iff.mpr (fun n hn => ?_)
    obtain ⟨-, -, pkt, rfl, -⟩ := hns n hn
    rfl
  rw [World.parsedBy] at hrest
  rw [World.parsedBy, htrace, List.filterMap_append, List.filterMap_cons, World.parsedBy]
  by_cases hi : i = this
  · simp only [hi, if_true]
    rw [← hi, hrest]
  · simp only [Ne.symm hi, hi, if_false]
    rw [hrest]

theorem parsedBy_congr (h : w'.trace = w.trace) (i : SessionId) :
    w'.parsedBy i = w.parsedBy i := by
  rw [parsedBy, h, parsedBy]

/-- What a handler does with what its packet asks for. -/
inductive Saying (w w' : World) (this : SessionId) (r : Registered) (bytes : List UInt8) : Prop
  | login (hr : r = .login) (hcasts : w'.broadcasts = w.broadcasts)
  | refused (hpid : claimedPlayerId bytes ≠ (w.sessions this).mPlayerId)
      (hcasts : w'.broadcasts = w.broadcasts)
  | relayed (w₁ : World) (pkt : OutPacket) (hprep : Prepares w w₁)
      (hrelay : w' = w₁.relay this pkt) (hwords : pkt.words = r.words bytes)

theorem saying_handler (hread : (w.sessions this).mRecvBuffer.read r.size = some (bytes, rest))
    (h : r.handler this w = some w') : Saying w w' this r bytes := by
  have hprep := prepares_consumed w this r.type bytes rest
  cases handled_of_read hread h with
  | login hr => exact .login hr hprep.broadcasts
  | refused hr hpid => exact .refused hpid hprep.broadcasts
  | chat hr hpid pkt hpkt =>
      subst hr
      obtain ⟨pkt', hid, htext, hrelay⟩ := chat_of_read hread hpid h
      refine .relayed _ _ hprep hrelay ?_
      rw [OutPacket.words, Registered.words, hid, htext]
  | move hr hpid =>
      subst hr
      exact .relayed _ _ (hprep.trans (prepares_setPosition _ this _ _)) rfl rfl

theorem saying_onReadBody (hreads : Reads w this r bytes) (h : onReadBody this w = .again w') :
    Saying w w' this r bytes := by
  rcases onReadBody_cases this w with ⟨hnot, -⟩ | ⟨-, ⟨-, heq⟩ | ⟨w₁, hrun, heq⟩⟩
  · exact absurd hreads.dispatched hnot
  · exact absurd (heq.symm.trans h) (by simp)
  · rw [heq] at h
    cases h
    simp only [handlerTable, hreads.registered] at hrun
    obtain ⟨rest, hread⟩ := hreads.read
    exact saying_handler hread hrun

theorem said_cast {sender : SessionId} {pkt : OutPacket} {b : Bool}
    (h : w'.broadcasts = w.broadcasts ++ if b then [(sender, pkt)] else []) (i : SessionId) :
    w'.said i = w.said i ++ if i = sender ∧ b = true then pkt.words.toList else [] := by
  rw [said, h, List.filterMap_append, said]
  congr 1
  cases b with
  | false => simp
  | true =>
      by_cases hi : i = sender
      · cases hwords : pkt.words with
        | none => simp [hi, hwords]
        | some words => simp [hi, hwords]
      · simp [hi, Ne.symm hi]

theorem said_congr (h : w'.broadcasts = w.broadcasts) (i : SessionId) : w'.said i = w.said i := by
  rw [said, h, said]

theorem asked_congr (h : w'.parsedBy i = w.parsedBy i) : w'.asked i = w.asked i := by
  rw [asked, h, asked]

end World

namespace Server

variable {st st' : Server} {i : SessionId}

-- ============================================================================
-- What the server makes of it
-- ============================================================================

/-- A session has broadcast what its packets have asked for, and all of that
    unless it has been hung up. -/
structure Echoed (st : Server) (i : SessionId) : Prop where
  inOrder : st.world.said i <+: st.world.asked i
  all : (st.world.sessions i).mConnected = true → st.world.said i = st.world.asked i

/-- Does the session read in its player's name? -/
def InOwnName (st : Server) (i : SessionId) : Prop :=
  ∀ r bytes, st.clientThread = .reading i → World.Reads st.world i r bytes →
    World.registered? (PacketHeader.ofBytes bytes).mType = some r ∧
      (r ≠ .login → World.claimedPlayerId bytes = (st.world.sessions i).mPlayerId)

section Step

variable (hr : system.Reachable st) (hunheard : st.world.next ≤ i → st.world.parsedBy i = [])
  {a : Event} (hstep : st.step a = some st')

include hr hunheard hstep

theorem Echoed.stay (h : Echoed st i) (hsaid : st'.world.said i = st.world.said i)
    (hasked : st'.world.asked i = st.world.asked i) : Echoed st' i := by
  refine ⟨by rw [hsaid, hasked]; exact h.inOrder, fun hconn => ?_⟩
  rw [hsaid, hasked]
  rcases mConnected_step hstep (sound_of_reachable hr).keyed hconn with hbefore | ⟨hnew, -⟩
  · exact h.all hbefore
  · -- a new session has read nothing
    have hnone : st.world.asked i = [] := by
      rw [World.asked, hunheard (Nat.le_of_eq hnew.symm)]
      rfl
    have hle := h.inOrder
    rw [hnone] at hle ⊢
    exact List.prefix_nil.mp hle

/-- A packet is read. -/
theorem Echoed.read (h : Echoed st i) (hlinger : LingerSet st .read) (hown : InOwnName st i)
    {this : SessionId} {r : World.Registered} {bytes : List UInt8}
    (hthread : st.clientThread = .reading this) (hreads : World.Reads st.world this r bytes)
    (hheard : World.Heard st.world st'.world this r bytes)
    (hbody : World.onReadBody this st.world = .again st'.world) : Echoed st' i := by
  have hparsed := hheard.parsedBy i
  by_cases hi : i = this
  · subst hi
    obtain ⟨hregistered, hname⟩ := hown r bytes hthread hreads
    have hasked : st'.world.asked i = st.world.asked i ++ (r.words bytes).toList := by
      have hwords : World.wordsAsked bytes = r.words bytes := by
        rw [World.wordsAsked, hregistered, Option.bind_some]
      rw [World.asked, hparsed, if_pos rfl, List.filterMap_append, World.asked]
      cases hw : r.words bytes with
      | none => simp [hwords, hw]
      | some words => simp [hwords, hw]
    cases World.saying_onReadBody hreads hbody with
    | login hlogin hcasts =>
        subst hlogin
        refine h.stay hr hunheard hstep (World.said_congr hcasts i) (hasked.trans ?_)
        exact List.append_nil _
    | refused hpid hcasts =>
        by_cases hlogin : r = .login
        · subst hlogin
          refine h.stay hr hunheard hstep (World.said_congr hcasts i) (hasked.trans ?_)
          exact List.append_nil _
        · exact absurd (hname hlogin) hpid
    | relayed w₁ pkt hprep hrelay hwords =>
        have hrel := relaying_of_relayed hr hlinger hprep hthread hbody hrelay
        have hafter := (hrel.offered i (Or.inl rfl)).mConnected
        have hsaid := World.said_cast hrel.broadcasts i
        rw [hwords] at hsaid
        cases haccepts : (st.world.sessions i).accepts pkt with
        | true =>
            rw [if_pos ⟨rfl, haccepts⟩] at hsaid
            have hbefore := (Bool.and_eq_true_iff.mp haccepts).1
            have heq : st'.world.said i = st'.world.asked i := by
              rw [hsaid, hasked, h.all hbefore]
            exact ⟨heq ▸ List.prefix_rfl, fun _ => heq⟩
        | false =>
            -- the packet is lost, and the session hung up
            rw [if_neg (fun hcond => Bool.noConfusion (hcond.2.symm.trans haccepts)),
              List.append_nil] at hsaid
            rw [haccepts] at hafter
            refine ⟨?_, fun hconn => Bool.noConfusion (hconn.symm.trans hafter)⟩
            rw [hsaid, hasked]
            exact h.inOrder.trans (List.prefix_append _ _)
  · have hasked : st'.world.asked i = st.world.asked i := by
      refine World.asked_congr ?_
      rw [hparsed, if_neg hi, List.append_nil]
    refine h.stay hr hunheard hstep ?_ hasked
    cases World.saying_onReadBody hreads hbody with
    | login _ hcasts => exact World.said_congr hcasts i
    | refused _ hcasts => exact World.said_congr hcasts i
    | relayed w₁ pkt hprep hrelay _ =>
        have hrel := relaying_of_relayed hr hlinger hprep hthread hbody hrelay
        rw [World.said_cast hrel.broadcasts i, if_neg (fun hcond => hi hcond.1), List.append_nil]

theorem Echoed.step (h : Echoed st i) (hlinger : LingerSet st a) (hown : InOwnName st i) :
    Echoed st' i := by
  have hquiet : st'.world.trace = st.world.trace → Echoed st' i := by
    intro htrace
    exact h.stay hr hunheard hstep (World.said_congr (World.broadcasts_congr htrace) i)
      (World.asked_congr (World.parsedBy_congr htrace i))
  cases step_plays hstep with
  | steady _ hsteady => exact hquiet hsteady.trace
  | take sendMem recvMem hprofile htrace => exact hquiet htrace
  | read this r bytes hthread hreads hheard =>
      cases step_moves hstep with
      | readAgain this' w _ hthread' hbody =>
          obtain rfl : this = this' := by
            rw [hthread] at hthread'
            exact ClientThread.reading.inj hthread'
          exact h.read hr hunheard hstep hlinger hown hthread hreads hheard hbody
      | readLeave this' w _ hthread' hbody =>
          exact hquiet
            ((World.steady_onReadBody_leave hbody).trans (World.steady_recvExit w this')).trace
  | dispatch t q client login hq hsuccess hdata hreg hconn hdone =>
      have htrace := (World.loggedIn_of_eq hdone).trace
      refine h.stay hr hunheard hstep (World.said_congr ?_ i) (World.asked_congr ?_)
      · rw [World.broadcasts_append htrace]
        exact List.append_nil _
      · rw [World.parsedBy, htrace, List.filterMap_append, World.parsedBy]
        exact List.append_nil _

end Step

end Server

namespace DummyClient
namespace ClientSession

variable {s s' : ClientSession}

theorem wordsAsked_loginRequest (s : ClientSession) :
    World.wordsAsked s.loginRequest = none := by
  have hheader : PacketHeader.ofBytes s.loginRequest
      = ⟨Int16.ofNat sizeofLoginRequest, PacketTypes.pktCsLogin.value⟩ := by
    rw [loginRequest, Request.ofBytes_header]
  rw [World.wordsAsked, hheader]
  rfl

/-- Only a dummy that is logged on sends anything from `OnTick`, in its own name. -/
theorem claimedPlayerId_waited {arith : FloatArith} {rand : Nat → Nat} {data : List UInt8}
    (h : s.waited arith rand = some (s', some data)) :
    s.mLogon = true ∧ World.claimedPlayerId data = s.mPlayerId := by
  rw [waited] at h
  split at h
  next => cases h
  next =>
    have hsent := congrArg Prod.snd (Option.some.inj h)
    rw [onTick] at hsent
    split at hsent
    next => cases hsent
    next hlogon =>
      refine ⟨by simpa using hlogon, ?_⟩
      split at hsent
      · cases hsent
        rw [chatBroadcastRequest, List.append_assoc]
        exact int32At_of_eq rfl (PacketHeader.length_toBytes _)
      · cases hsent
        rw [TcpClient.moveRequest, List.append_assoc, List.append_assoc]
        exact int32At_of_eq rfl (PacketHeader.length_toBytes _)

end ClientSession

/-- What a call of `HandleReadPayload` has heard of a player. -/
def PayloadCall.words (id : Int32) (call : PayloadCall) : Option Words :=
  call.pktResult.bind fun r =>
    match r.2 with
    | .loginResult _ => none
    | .chatBroadcastResult q =>
        if q.mPlayerId = id then
          some (.chat q.mPlayerId (q.mChat.bytes.takeWhile (· ≠ 0)))
        else none
    | .moveBroadcastResult q =>
        if q.mPlayerId = id then some (.move q.mPlayerId q.mPosX q.mPosY) else none

theorem ClientSession.words_seen (id : Int32) (p : OutPacket) :
    (seen p).words id = if p.mPlayerId = id then p.words else none := by
  cases p with
  | loginResult q => exact (ite_self none).symm
  | chatBroadcastResult q => rfl
  | moveBroadcastResult q => rfl

end DummyClient

namespace Crowd

open DummyClient
open DummyClient.ClientSession (headerRead)
open World (wordsAsked)

variable {arith : FloatArith} {c c' : Crowd} {i : SessionId}

-- ============================================================================
-- What the dummies ask for
-- ============================================================================

/-- What a dummy has sent after a step. -/
theorem requests_step {e : Event} (h : c.step arith e = some c') {p : List UInt8}
    (hp : p ∈ c'.requests i) :
    p ∈ c.requests i ∨ p = (c.dummies i).loginRequest ∨
      ∃ rand s, (c.dummies i).waited arith rand = some (s, some p) := by
  have hput : ∀ {j : SessionId} {sent : List (List UInt8)},
      p ∈ (if i = j then c.requests j ++ sent else c.requests i) →
      p ∈ c.requests i ∨ (i = j ∧ p ∈ sent) := by
    intro j sent hmem
    split at hmem
    next hj =>
      rcases List.mem_append.mp hmem with hold | hnew
      · exact Or.inl (hj ▸ hold)
      · exact Or.inr ⟨hj, hnew⟩
    next => exact Or.inl hmem
  cases step_moves h with
  | server => exact Or.inl hp
  | connect j =>
      rcases hput hp with hold | ⟨rfl, hnew⟩
      · exact Or.inl hold
      · exact Or.inr (Or.inl (List.mem_singleton.mp hnew))
  | read j =>
      rcases hput hp with hold | ⟨-, hnew⟩
      · exact Or.inl hold
      · cases hnew
  | readFails j =>
      rcases hput hp with hold | ⟨-, hnew⟩
      · exact Or.inl hold
      · cases hnew
  | timer j rand s sent hwaited =>
      rcases hput hp with hold | ⟨rfl, hnew⟩
      · exact Or.inl hold
      · obtain rfl : sent = some p := Option.mem_toList.mp hnew
        exact Or.inr (Or.inr ⟨rand, s, hwaited⟩)

/-- A dummy asks for something only after a login, and in its own name; and the
    server echoes it. -/
structure Worded (c : Crowd) (i : SessionId) : Prop where
  asked : ∀ p ∈ c.requests i, wordsAsked p ≠ none →
    Server.logins c.server.world.trace i ≠ [] ∧
      World.claimedPlayerId p = (c.dummies i).mPlayerId
  echoed : c.server.Echoed i

/-- The server knows whoever asks. -/
theorem Worded.inOwnName (h : Worded c i) (hsettled : Settled c) : c.server.InOwnName i := by
  intro r bytes hthread hreads
  have hhears := hsettled.followed.heard.hears i
  obtain ⟨hmem, hregistered⟩ :=
    hhears.listens.mem_of_reads hhears.conforming hthread hreads
  refine ⟨hregistered, fun hlogin => ?_⟩
  have hwords : wordsAsked bytes ≠ none := by
    rw [World.wordsAsked, hregistered, Option.bind_some]
    cases r with
    | login => exact absurd rfl hlogin
    | chat => exact Option.some_ne_none _
    | move => exact Option.some_ne_none _
  obtain ⟨hlogins, hname⟩ := h.asked bytes hmem hwords
  have hone : Server.logins c.server.world.trace i = [(c.dummies i).mPlayerId] := by
    rcases List.sublist_singleton.mp (hsettled.logins_le i).sublist with hnone | hone
    · exact absurd hnone hlogins
    · exact hone
  have hknows := ((Server.known_of_reachable
    hsettled.followed.heard.orderly.of_startingWith.reachable).knows i).mPlayerId
  rw [Server.player_playOf, hone] at hknows
  exact hname.trans hknows.symm

/-- A dummy that is logged on has been logged in. -/
theorem Settled.logins_ne_nil (h : Settled c) (hlogon : (c.dummies i).mLogon = true) :
    Server.logins c.server.world.trace i ≠ [] := by
  obtain ⟨id, start, handled, rest, htold⟩ := h.followed.told i
  have hmade : (c.dummies i).mLogon = decide (handled.filterMap OutPacket.login ≠ []) :=
    congrArg ClientSession.Own.mLogon htold.made.own
  rw [hmade, decide_eq_true_eq] at hlogon
  intro hnone
  obtain ⟨since, hserved⟩ := htold.served
  have hall := hserved.told
  rw [hnone, List.filterMap_append] at hall
  exact hlogon (List.append_eq_nil_iff.mp (List.sublist_nil.mp hall)).1

theorem worded_start (h : Start c) (i : SessionId) : Worded c i := by
  obtain ⟨⟨⟨tick, answers, players, heq⟩, -⟩, -, -, hrequests, -⟩ := h
  constructor
  · intro p hp
    rw [hrequests i] at hp
    cases hp
  · rw [heq]
    exact ⟨List.nil_prefix, fun _ => rfl⟩

theorem worded_step {e : Event} (hbefore : Settled c) (hok : Undisturbed c e)
    (hstep : c.step arith e = some c') (h : Worded c i) : Worded c' i := by
  obtain ⟨⟨-, hids⟩, hserver⟩ := step_spec hstep
  have hreach := hbefore.followed.heard.orderly.of_startingWith.reachable
  have hgrows : Server.logins c.server.world.trace i ≠ [] →
      Server.logins c'.server.world.trace i ≠ [] := by
    intro hne
    rcases hserver with ⟨e, rfl, htaken⟩ | hsame
    · obtain ⟨ns, htrace⟩ := Server.trace_step htaken
      rw [htrace, Server.logins_append]
      exact List.append_ne_nil_of_left_ne_nil hne _
    · rwa [hsame]
  constructor
  · intro p hp hwords
    rw [hids]
    rcases requests_step hstep hp with hold | rfl | ⟨rand, s, hwaited⟩
    · obtain ⟨hlogins, hname⟩ := h.asked p hold hwords
      exact ⟨hgrows hlogins, hname⟩
    · exact absurd (ClientSession.wordsAsked_loginRequest _) hwords
    · obtain ⟨hlogon, hname⟩ := ClientSession.claimedPlayerId_waited hwaited
      exact ⟨hgrows (hbefore.logins_ne_nil hlogon), hname⟩
  · rcases hserver with ⟨e, rfl, htaken⟩ | hsame
    · have hunheard := fun hnew => ((hbefore.followed.heard.hears i).listens.unheard hnew).1
      exact h.echoed.step hreach hunheard htaken hok.1.lingerSet (h.inOwnName hbefore)
    · rw [hsame]
      exact h.echoed

theorem worded (h : (system arith).ReachableBy Undisturbed c) (i : SessionId) : Worded c i := by
  induction h with
  | init h => exact worded_start h i
  | step hr hok hstep ih => exact worded_step (settled hr) hok hstep ih

/-- What is broadcast in a dummy's name is what its session says. -/
theorem Settled.words_casts (h : Settled c) (hi : i < c.mTotalDummyCount) :
    c.server.casts.filterMap
        (fun p => if p.mPlayerId = (c.dummies i).mPlayerId then p.words else none)
      = c.server.world.said i := by
  rw [Server.casts, List.filterMap_map, World.said]
  refine List.filterMap_congr (fun cast hcast => ?_)
  have hiff := h.sender_iff hi cast.1 cast.2 hcast
  by_cases hsender : cast.1 = i
  · simp [hsender, hiff.mpr hsender]
  · simp [hsender, mt hiff.mp hsender]

/-- **The dummies hear each other.**  In every undisturbed run of the crowd,
    what a session has broadcast is what its dummy has sent to be broadcast, in
    order and unchanged, and, as long as it is connected, all that the session
    has read.  What any dummy has heard of it is a part of that with nothing
    left out in between, and for a dummy that has everything there is for it,
    reaches up to the last. -/
theorem words_heard (arith : FloatArith) (c : Crowd)
    (h : (system arith).ReachableBy Undisturbed c) (i : SessionId)
    (hi : i < c.mTotalDummyCount) :
    c.server.world.said i <+: (c.requests i).filterMap wordsAsked ∧
      ((c.server.world.sessions i).mConnected = true →
        c.server.world.said i = (c.server.world.parsedBy i).filterMap wordsAsked) ∧
      ∀ j, (c.dummies j).payloads.filterMap (PayloadCall.words (c.dummies i).mPlayerId)
          <:+: c.server.world.said i ∧
        (CaughtUp c j →
          (c.dummies j).payloads.filterMap (PayloadCall.words (c.dummies i).mPlayerId)
            <:+ c.server.world.said i) := by
  have hsettled := settled h
  have hworded := worded h i
  refine ⟨hworded.echoed.inOrder.trans
    ((hsettled.followed.heard.hears i).parsedBy.1.filterMap wordsAsked),
    hworded.echoed.all, fun j => ?_⟩
  obtain ⟨id, start, handled, rest, htold⟩ := hsettled.followed.told j
  obtain ⟨since, hserved⟩ := htold.served
  have hheard : (c.dummies j).payloads.filterMap (PayloadCall.words (c.dummies i).mPlayerId)
      = (handled.filter OutPacket.isRelayed).filterMap
        (fun p => if p.mPlayerId = (c.dummies i).mPlayerId then p.words else none) := by
    rw [OutPacket.filterMap_filter_isRelayed (fun q => ite_self none), htold.made.payloads,
      List.filterMap_map]
    exact congrArg (fun f => handled.filterMap f) (funext (ClientSession.words_seen _))
  rw [hheard, ← hsettled.words_casts hi]
  constructor
  · exact hserved.heard_infix.filterMap _
  · intro hcaught
    have hsuffix := hserved.isSuffix hcaught.present
    rw [htold.rest_eq_nil hcaught, List.append_nil] at hsuffix
    exact hsuffix.filterMap _

theorem words_heard_walk :
    ∃ c, (system Game.fromZero).ReachableBy Undisturbed c ∧ CaughtUp c 1 ∧
      (c.dummies 1).payloads.length = 1 ∧
      (c.dummies 1).payloads.filterMap (PayloadCall.words 1001)
        <:+ [.move 1001 0xC2480000 0xC1F00000] ∧
      [.move 1001 0xC2480000 0xC1F00000] <+: (c.requests 0).filterMap wordsAsked := by
  have hrun : ((system Game.fromZero).runIf isUndisturbed twoDummies (walkEvents ++ [.read 1])).map
      (fun c => (decide (c.server.world.mClientList[6]? = some 1 ∧
          (c.server.world.sessions 1).mConnected = true),
        decide (c.server.buffered 1 = [] ∧ c.inFlight 1 = [] ∧
          (c.dummies 1).reading = some headerRead),
        decide (0 < c.mTotalDummyCount ∧ (c.dummies 0).mPlayerId = 1001),
        (c.dummies 1).payloads.length, c.server.world.said 0))
        = some (true, true, true, 1, [.move 1001 0xC2480000 0xC1F00000]) := by
    decide +kernel
  obtain ⟨c, hc, hall⟩ := Option.map_eq_some_iff.mp hrun
  simp only [Prod.mk.injEq, decide_eq_true_eq] at hall
  obtain ⟨⟨hlisted, hconn⟩, ⟨hbuffered, hflight, hreading⟩, ⟨hcount, hid⟩, hlen, hsaid⟩ := hall
  have hinit : (system Game.fromZero).ReachableBy Undisturbed twoDummies := .init start_twoDummies
  have hreach := hinit.runIf undisturbed_of_isUndisturbed hc
  have hcaught : CaughtUp c 1 := ⟨⟨⟨6, hlisted⟩, hconn⟩, hbuffered, hflight, hreading⟩
  obtain ⟨hasked, -, hheard⟩ := words_heard Game.fromZero c hreach 0 hcount
  have hlast := (hheard 1).2 hcaught
  rw [hsaid] at hasked
  rw [hsaid, hid] at hlast
  exact ⟨c, hreach, hcaught, hlen, hlast, hasked⟩

end Crowd
end EasyGameServer
