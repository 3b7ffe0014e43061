/-
  EasyGameServer.DummyClient.OnTick

  What a dummy does, beside reading.  It logs in when it is connected; the
  login's result starts a timer, and each time the timer goes off the dummy
  chats or walks, at random, and starts it again.

  What it knows of itself is what the packets it has handled have told it: that
  it is logged on, and where its own last move led.
-/

import EasyGameServer.DummyClient
import EasyGameServer.HelloWorld
import EasyGameServer.PacketType.Relayed

namespace EasyGameServer
namespace DummyClient

open Lib
open OutPacket (lastMove)

def START_PLAYER_ID : Nat := 1001

/-- A number below 2 ^ 24 as a `float`. -/
def floatOfNat (n : Nat) : CFloat :=
  if n = 0 then 0
  else UInt32.ofNat ((127 + n.log2) * 2 ^ 23 + (n - 2 ^ n.log2) * 2 ^ (23 - n.log2))

/-- `%d`. -/
def decimal (n : Int32) : List UInt8 :=
  (if n < 0 then [45] else []) ++
    (Nat.toDigits 10 n.toInt.natAbs).map (fun c => UInt8.ofNat c.toNat)

/-- " TEST CHAT: HELLO~~ This is Player %d =====" -/
def testChat (mPlayerId : Int32) : List UInt8 :=
  [32, 84, 69, 83, 84, 32, 67, 72, 65, 84, 58, 32, 72, 69, 76, 76, 79, 126, 126, 32, 84, 104, 105,
    115, 32, 105, 115, 32, 80, 108, 97, 121, 101, 114, 32] ++ decimal mPlayerId ++
    [32, 61, 61, 61, 61, 61]

/-- `pos + rand % range - shift`. -/
def stroll (arith : FloatArith) (pos : CFloat) (rand range shift : Nat) : CFloat :=
  arith.sub (arith.add pos (floatOfNat (rand % range))) (floatOfNat shift)

namespace ClientSession

variable {s s' : ClientSession}

/-- What `HandleConnect` sends. -/
def loginRequest (s : ClientSession) : List UInt8 :=
  PacketHeader.toBytes ⟨Int16.ofNat sizeofLoginRequest, PacketTypes.pktCsLogin.value⟩
    ++ int32Bytes s.mPlayerId

def chatBroadcastRequest (s : ClientSession) : List UInt8 :=
  PacketHeader.toBytes ⟨Int16.ofNat sizeofChatBroadcastRequest, PacketTypes.pktCsChat.value⟩
    ++ int32Bytes s.mPlayerId ++ Request.chatField (testChat s.mPlayerId)

/-- One more wait is outstanding. -/
def doTimer (s : ClientSession) : ClientSession := { s with timers := s.timers + 1 }

/-- `OnTick`, by what the calls of `rand()` return, and what it sends. -/
def onTick (arith : FloatArith) (s : ClientSession) (rand : Nat → Nat) :
    ClientSession × Option (List UInt8) :=
  if !s.mLogon then (s, none)
  else if rand 0 % 5 = 0 then (s.doTimer, some s.chatBroadcastRequest)
  else
    (s.doTimer, some (TcpClient.moveRequest s.mPlayerId (stroll arith s.mPosX (rand 1) 100 50)
      (stroll arith s.mPosY (rand 2) 60 30)))

/-- A wait is over; the handler does not ask whether it was cancelled. -/
def waited (arith : FloatArith) (s : ClientSession) (rand : Nat → Nat) :
    Option (ClientSession × Option (List UInt8)) :=
  if s.timers = 0 then none
  else some ({ s with timers := s.timers - 1 }.onTick arith rand)

-- ============================================================================
-- What a dummy sends
-- ============================================================================

/-- A decimal number has at most eleven characters. -/
theorem length_decimal_le (n : Int32) : (decimal n).length ≤ 11 := by
  have hlt : n.toInt.natAbs < 10 ^ 10 := by
    have hmin := n.le_toInt
    have hmax := n.toInt_lt
    omega
  have hdigits := (Nat.length_toDigits_le_iff (b := 10) (by decide) (by decide)).mpr hlt
  rw [decimal, List.length_append, List.length_map]
  split
  · rw [List.length_singleton]
    omega
  · rw [List.length_nil]
    omega

theorem length_testChat_lt (id : Int32) : (testChat id).length < maxChatLen := by
  have hle := length_decimal_le id
  have hsize : maxChatLen = 256 := rfl
  simp only [testChat, List.length_append, List.length_cons, List.length_nil]
  omega

theorem requested_chatBroadcastRequest (hid : s.mPlayerId ≠ -1) :
    Requested s.chatBroadcastRequest :=
  Request.requested_chat hid (length_testChat_lt s.mPlayerId)

/-- A dummy that is not player −1 sends what the server likes. -/
theorem requested_waited {arith : FloatArith} {rand : Nat → Nat} {data : List UInt8}
    (hid : s.mPlayerId ≠ -1) (h : s.waited arith rand = some (s', some data)) :
    Requested data := by
  rw [waited] at h
  split at h
  next => cases h
  next =>
    have hsent := congrArg Prod.snd (Option.some.inj h)
    rw [onTick] at hsent
    split at hsent
    · cases hsent
    · split at hsent
      · cases hsent
        exact requested_chatBroadcastRequest (s := { s with timers := s.timers - 1 }) hid
      · cases hsent
        exact Request.requested_move hid _ _

-- ============================================================================
-- What a dummy knows of itself
-- ============================================================================

structure Own where
  mPlayerId : Int32
  mLogon : Bool
  timers : Nat
  pos : CFloat × CFloat

/-- After a result that has been copied to its struct. -/
def Own.see (o : Own) : Received → Own
  | .loginResult _ => { o with mLogon := true, timers := o.timers + 1 }
  | .chatBroadcastResult _ => o
  | .moveBroadcastResult q =>
      if o.mPlayerId = q.mPlayerId then { o with pos := (q.mPosX, q.mPosY) } else o

def own (s : ClientSession) : Own := ⟨s.mPlayerId, s.mLogon, s.timers, (s.mPosX, s.mPosY)⟩

/-- `HandleReadPayload` changes what the struct it has copied to says. -/
theorem own_handleReadPayload (h : s.handleReadPayload false = some s') :
    ∃ call, s'.payloads = s.payloads ++ [call] ∧
      s'.own = (call.pktResult.map Prod.snd).elim s.own s.own.see := by
  unfold handleReadPayload at h
  simp only [Bool.false_eq_true, if_false] at h
  split at h
  next =>
    obtain ⟨bytes, -, rfl⟩ := Option.map_eq_some_iff.mp h
    exact ⟨_, rfl, rfl⟩
  next =>
    split at h
    next =>
      obtain ⟨bytes, -, rfl⟩ := Option.map_eq_some_iff.mp h
      exact ⟨_, rfl, rfl⟩
    next =>
      split at h
      next =>
        obtain ⟨bytes, -, rfl⟩ := Option.map_eq_some_iff.mp h
        refine ⟨⟨decodeShort (s.mReadBuf 0) (s.mReadBuf 1),
          decodeShort (s.mReadBuf 2) (s.mReadBuf 3),
          some (sizeofMoveBroadcastResult, .moveBroadcastResult (.ofBytes bytes))⟩, ?_, ?_⟩
        · split
          · rfl
          · rfl
        · split
          next hme => exact (if_pos hme).symm
          next hme => exact (if_neg hme).symm
      next =>
        cases h
        exact ⟨_, rfl, rfl⟩

/-- No packet is a header alone. -/
theorem payloadRead_pos (p : OutPacket) : 0 < (payloadRead p).len := by
  rw [payloadRead, p.length_toBytes]
  cases p with
  | loginResult q =>
      exact (by decide : 0 < shortToSize LoginResult.header.mSize - sizeofPacketHeader)
  | chatBroadcastResult q =>
      exact (by decide : 0 < shortToSize ChatBroadcastResult.header.mSize - sizeofPacketHeader)
  | moveBroadcastResult q =>
      exact (by decide : 0 < shortToSize MoveBroadcastResult.header.mSize - sizeofPacketHeader)

/-- The header has come. -/
theorem own_completed_header {data : List UInt8}
    (h : s.completed headerRead false data = some s') : s'.own = s.own := by
  rw [completed, if_pos (by decide)] at h
  cases h
  rfl

/-- The payload has come: the packet has been seen. -/
theorem own_completed_payload {p : OutPacket}
    (hheader : slice s.mReadBuf 0 sizeofPacketHeader = p.header.toBytes)
    (h : s.completed (payloadRead p) false (p.toBytes.drop sizeofPacketHeader) = some s') :
    s'.own = s.own.see p.received := by
  obtain ⟨s'', hcompleted, -, hpayloads⟩ := completed_payload s p hheader
  obtain rfl : s' = s'' := Option.some.inj (h.symm.trans hcompleted)
  rw [completed, if_pos (payloadRead_inside p)] at h
  obtain ⟨call, hcall, hown⟩ := own_handleReadPayload h
  have hseen : [call] = [seen p] := List.append_cancel_left (hcall.symm.trans hpayloads)
  rw [List.cons.inj hseen |>.1] at hown
  exact hown

/-- An `async_read` that fails is the last. -/
theorem completed_error {r : AsyncRead} {data : List UInt8}
    (h : s.completed r true data = some s') :
    s'.reading = none ∧ s'.payloads = s.payloads ∧ s'.own = s.own := by
  rw [completed] at h
  split at h
  next =>
    cases hhandler : r.handler with
    | handleReadHeader =>
        rw [hhandler] at h
        cases h
        exact ⟨rfl, rfl, rfl⟩
    | handleReadPayload =>
        rw [hhandler] at h
        cases h
        exact ⟨rfl, rfl, rfl⟩
  next => cases h

/-- A wait that is over changes nothing, or the dummy was not logged on. -/
theorem own_waited {arith : FloatArith} {rand : Nat → Nat} {sent : Option (List UInt8)}
    (h : s.waited arith rand = some (s', sent)) (hlogon : 0 < s.timers → s.mLogon = true) :
    s'.reading = s.reading ∧ s'.mReadBuf = s.mReadBuf ∧ s'.payloads = s.payloads ∧
      s'.own = s.own := by
  rw [waited] at h
  split at h
  next => cases h
  next hzero =>
    have hpos : 0 < s.timers := Nat.pos_of_ne_zero hzero
    have hafter : (({ s with timers := s.timers - 1 } : ClientSession).onTick arith rand).1
        = { s with timers := s.timers - 1 + 1 } := by
      rw [onTick, if_neg (by simp [hlogon hpos])]
      split
      · rfl
      · rfl
    have hs' := congrArg Prod.fst (Option.some.inj h)
    rw [hafter] at hs'
    obtain rfl : s' = { s with timers := s.timers - 1 + 1 } := hs'.symm
    refine ⟨rfl, rfl, rfl, ?_⟩
    rw [own, Nat.sub_add_cancel hpos, own]

-- ============================================================================
-- What its packets have made of it
-- ============================================================================

/-- A dummy that has handled these packets. -/
structure Made (s : ClientSession) (id : Int32) (start : CFloat × CFloat)
    (handled : List OutPacket) : Prop where
  payloads : s.payloads = handled.map seen
  own : s.own = ⟨id, decide (handled.filterMap OutPacket.login ≠ []),
    (handled.filterMap OutPacket.login).length, (lastMove id handled).getD start⟩

namespace Made

variable {id : Int32} {start : CFloat × CFloat} {handled : List OutPacket}

theorem congr (h : Made s id start handled) (hpayloads : s'.payloads = s.payloads)
    (hown : s'.own = s.own) : Made s' id start handled :=
  ⟨hpayloads.trans h.payloads, hown.trans h.own⟩

theorem mPlayerId (h : Made s id start handled) : s.mPlayerId = id := congrArg Own.mPlayerId h.own

/-- Without a login result no timer has been started. -/
theorem mLogon (h : Made s id start handled) (htimers : 0 < s.timers) : s.mLogon = true := by
  have hlogon : s.mLogon = decide (handled.filterMap OutPacket.login ≠ []) :=
    congrArg Own.mLogon h.own
  have hcount : s.timers = (handled.filterMap OutPacket.login).length :=
    congrArg Own.timers h.own
  rw [hcount] at htimers
  rw [hlogon, decide_eq_true_iff]
  exact List.ne_nil_of_length_pos htimers

/-- The next packet is handled. -/
theorem see (h : Made s id start handled) {p : OutPacket}
    (hpayloads : s'.payloads = s.payloads ++ [seen p]) (hown : s'.own = s.own.see p.received) :
    Made s' id start (handled ++ [p]) := by
  constructor
  · rw [hpayloads, h.payloads, List.map_append]
    rfl
  · rw [hown, h.own]
    cases p with
    | loginResult q =>
        have hmove : lastMove id (handled ++ [.loginResult q]) = lastMove id handled :=
          OutPacket.lastMove_concat_none rfl
        simp [Own.see, OutPacket.received, OutPacket.login, hmove]
    | chatBroadcastResult q =>
        have hmove : lastMove id (handled ++ [.chatBroadcastResult q]) = lastMove id handled :=
          OutPacket.lastMove_concat_none rfl
        simp [Own.see, OutPacket.received, OutPacket.login, hmove]
    | moveBroadcastResult q =>
        by_cases hq : q.mPlayerId = id
        · have hmove :
              lastMove id (handled ++ [.moveBroadcastResult q]) = some (q.mPosX, q.mPosY) :=
            OutPacket.lastMove_concat_move hq
          simp [Own.see, OutPacket.received, OutPacket.login, hmove, hq]
        · have hmove : lastMove id (handled ++ [.moveBroadcastResult q]) = lastMove id handled :=
            OutPacket.lastMove_concat_other hq
          simp [Own.see, OutPacket.received, OutPacket.login, hmove, Ne.symm hq]

end Made

end ClientSession
end DummyClient
end EasyGameServer
