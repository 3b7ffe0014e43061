/-
  EasyGameServer.DummyClient

  The reading side of the DummyClient's `ClientSession`: a chain of
  `async_read`s, one for the four bytes of a header and one for the payload
  whose length the header gives, decoded by hand from the bytes of `mReadBuf`.

  An `async_read` that has all its bytes stores them in `mReadBuf` and calls
  its handler.  A step is `none` when it would write outside `mReadBuf` or
  copy more than the struct that is copied to holds.
-/

import EasyGameServer.CircularBuffer.Basic
import EasyGameServer.PacketType.Received

namespace EasyGameServer

open Lib
open OutPacket (stream)

namespace DummyClient

def RECV_BUF_SIZE : Nat := 4096

inductive Handler where
  | handleReadHeader
  | handleReadPayload
deriving DecidableEq, Repr

/-- An outstanding `async_read`: where in `mReadBuf`, how much, and who is called. -/
structure AsyncRead where
  offset : Nat
  len : Nat
  handler : Handler
deriving DecidableEq, Repr

/-- What a call of `HandleReadPayload` saw: the length and type it decoded, and
    the struct it copied to, with its size. -/
structure PayloadCall where
  pktLen : Nat
  pktType : Nat
  pktResult : Option (Nat × Received)

structure ClientSession where
  mReadBuf : Nat → UInt8
  mPlayerId : Int32
  mLogon : Bool
  mPosX : CFloat
  mPosY : CFloat
  /-- The timers started with `DoTimer`. -/
  timers : Nat
  reading : Option AsyncRead
  payloads : List PayloadCall

/-- `static_cast<int>(hi) << 8 | lo`. -/
def decodeShort (lo hi : UInt8) : Nat := hi.toNat <<< 8 ||| lo.toNat

namespace ClientSession

/-- The constructor, which leaves `mReadBuf` as it finds it and the position to
    chance. -/
def create (pid : Int32) (mReadBuf : Nat → UInt8) (mPosX mPosY : CFloat) : ClientSession where
  mReadBuf := mReadBuf
  mPlayerId := pid
  mLogon := false
  mPosX := mPosX
  mPosY := mPosY
  timers := 0
  reading := none
  payloads := []

def postReadHeader (s : ClientSession) : ClientSession :=
  { s with
    mReadBuf := fun _ => 0
    reading := some ⟨0, sizeofPacketHeader, .handleReadHeader⟩ }

def postReadPayload (s : ClientSession) (len : Nat) : ClientSession :=
  { s with reading := some ⟨sizeofPacketHeader, len, .handleReadPayload⟩ }

/-- `HandleConnect`, the login request it sends aside. -/
def handleConnect (s : ClientSession) : ClientSession := s.postReadHeader

def handleReadHeader (s : ClientSession) (error : Bool) : ClientSession :=
  if error then s
  else s.postReadPayload (sizeSub (decodeShort (s.mReadBuf 0) (s.mReadBuf 1)) sizeofPacketHeader)

/-- `memcpy_s(&pktResult, pktLen, &mReadBuf, pktLen)` into a struct of this
    size, filled by its constructor: the bytes of the struct. -/
def memcpyS (s : ClientSession) (pktLen size : Nat) (blank : List UInt8) : Option (List UInt8) :=
  if pktLen ≤ size ∧ pktLen ≤ RECV_BUF_SIZE then
    some (slice s.mReadBuf 0 pktLen ++ blank.drop pktLen)
  else none

/-- Note what this call of `HandleReadPayload` saw. -/
def called (s : ClientSession) (call : PayloadCall) : ClientSession :=
  { s with payloads := s.payloads ++ [call] }

def handleReadPayload (s : ClientSession) (error : Bool) : Option ClientSession :=
  if error then some s
  else
    let pktLen := decodeShort (s.mReadBuf 0) (s.mReadBuf 1)
    let pktType := decodeShort (s.mReadBuf 2) (s.mReadBuf 3)
    if (pktType : Int) = PacketTypes.pktScLogin.value.toInt then
      (s.memcpyS pktLen sizeofLoginResult Received.LoginResult.blank).map fun bytes =>
        let pktResult := Received.LoginResult.ofBytes bytes
        let s := s.called ⟨pktLen, pktType, some (sizeofLoginResult, .loginResult pktResult)⟩
        { s with mLogon := true, timers := s.timers + 1 }.postReadHeader
    else if (pktType : Int) = PacketTypes.pktScChat.value.toInt then
      (s.memcpyS pktLen sizeofChatBroadcastResult Received.ChatBroadcastResult.blank).map
        fun bytes =>
          let pktResult := Received.ChatBroadcastResult.ofBytes bytes
          (s.called ⟨pktLen, pktType,
            some (sizeofChatBroadcastResult, .chatBroadcastResult pktResult)⟩).postReadHeader
    else if (pktType : Int) = PacketTypes.pktScMove.value.toInt then
      (s.memcpyS pktLen sizeofMoveBroadcastResult Received.MoveBroadcastResult.blank).map
        fun bytes =>
          let pktResult := Received.MoveBroadcastResult.ofBytes bytes
          let s := s.called ⟨pktLen, pktType,
            some (sizeofMoveBroadcastResult, .moveBroadcastResult pktResult)⟩
          (if s.mPlayerId = pktResult.mPlayerId then
            { s with mPosX := pktResult.mPosX, mPosY := pktResult.mPosY }
          else s).postReadHeader
    else some (s.called ⟨pktLen, pktType, none⟩).postReadHeader

/-- An `async_read` is over: with an error, or with all its bytes. -/
def completed (s : ClientSession) (r : AsyncRead) (error : Bool) (data : List UInt8) :
    Option ClientSession :=
  if r.offset + r.len ≤ RECV_BUF_SIZE then
    let s := { s with mReadBuf := memcpy s.mReadBuf r.offset data, reading := none }
    match r.handler with
    | .handleReadHeader => some (s.handleReadHeader error)
    | .handleReadPayload => s.handleReadPayload error
  else none

/-- The first `n` completions on a stream of bytes, and what is left of it. -/
def feed : Nat → ClientSession → List UInt8 → Option (ClientSession × List UInt8)
  | 0, s, bytes => some (s, bytes)
  | n + 1, s, bytes =>
      match s.reading with
      | none => some (s, bytes)
      | some r =>
          if bytes.length < r.len then some (s, bytes)
          else
            (s.completed r false (bytes.take r.len)).bind
              (fun s' => feed n s' (bytes.drop r.len))

/-! ## The header -/

/-- Two bytes of a `short`, decoded by hand. -/
theorem decodeShort_bytes {x : Int16} {lo hi : UInt8} (h : int16Bytes x = [lo, hi]) :
    decodeShort lo hi = x.toBitVec.toNat := by
  have hlt : x.toBitVec.toNat < 65536 := x.toBitVec.isLt
  have hbytes : [UInt8.ofNat x.toBitVec.toNat, UInt8.ofNat (x.toBitVec.toNat / 256)]
      = [lo, hi] := h
  obtain ⟨rfl, htail⟩ := List.cons.inj hbytes
  obtain ⟨rfl, -⟩ := List.cons.inj htail
  have hlo : (UInt8.ofNat x.toBitVec.toNat).toNat < 2 ^ 8 := UInt8.toNat_lt _
  rw [decodeShort, ← Nat.shiftLeft_add_eq_or_of_lt hlo, Nat.shiftLeft_eq, UInt8.toNat_ofNat',
    UInt8.toNat_ofNat']
  omega

theorem decode_header {m : Nat → UInt8} {header : PacketHeader}
    (h : slice m 0 sizeofPacketHeader = header.toBytes) :
    decodeShort (m 0) (m 1) = header.mSize.toBitVec.toNat ∧
      decodeShort (m 2) (m 3) = header.mType.toBitVec.toNat := by
  have hfour : [m 0, m 1] ++ [m 2, m 3] = int16Bytes header.mSize ++ int16Bytes header.mType := h
  obtain ⟨hsize, htype⟩ := List.append_inj hfour rfl
  exact ⟨decodeShort_bytes hsize.symm, decodeShort_bytes htype.symm⟩

/-- The server's lengths are not negative. -/
theorem toNat_mSize (p : OutPacket) : p.header.mSize.toBitVec.toNat = p.toBytes.length := by
  rw [p.length_toBytes]
  cases p with
  | loginResult p => rfl
  | chatBroadcastResult p => rfl
  | moveBroadcastResult p => rfl

/-! ## One packet -/

variable {s s' : ClientSession}

/-- What `HandleReadPayload` sees of a packet of the server's. -/
def seen (p : OutPacket) : PayloadCall where
  pktLen := p.toBytes.length
  pktType := p.header.mType.toBitVec.toNat
  pktResult := some (p.toBytes.length, p.received)

/-- The read of the next header is outstanding. -/
def headerRead : AsyncRead := ⟨0, sizeofPacketHeader, .handleReadHeader⟩

/-- The read of the rest of this packet is outstanding. -/
def payloadRead (p : OutPacket) : AsyncRead :=
  ⟨sizeofPacketHeader, p.toBytes.length - sizeofPacketHeader, .handleReadPayload⟩

/-- Header and payload lie in `mReadBuf`. -/
theorem payloadRead_inside (p : OutPacket) :
    (payloadRead p).offset + (payloadRead p).len ≤ RECV_BUF_SIZE := by
  have hle := p.length_toBytes_le
  have hheader := p.sizeofPacketHeader_le
  have hsize : RECV_BUF_SIZE = 4096 := rfl
  simp only [payloadRead]
  omega

/-- The header has come: the rest of the packet is read behind it. -/
theorem completed_header (s : ClientSession) (p : OutPacket) :
    ∃ s', s.completed headerRead false (p.toBytes.take sizeofPacketHeader) = some s' ∧
      s'.reading = some (payloadRead p) ∧ s'.payloads = s.payloads ∧
      slice s'.mReadBuf 0 sizeofPacketHeader = p.header.toBytes := by
  rw [p.take_toBytes]
  have hslice := slice_memcpy_self s.mReadBuf 0 p.header.toBytes
  rw [PacketHeader.length_toBytes] at hslice
  obtain ⟨hlen, -⟩ := decode_header hslice
  rw [toNat_mSize] at hlen
  refine ⟨_, if_pos (by decide), ?_, rfl, hslice⟩
  simp only [headerRead, handleReadHeader, postReadPayload, Bool.false_eq_true, if_false, hlen,
    sizeSub_of_le p.sizeofPacketHeader_le]
  rfl

/-- A copy as long as the struct leaves the packet in it. -/
theorem memcpyS_whole {p : OutPacket} {size : Nat} {blank : List UInt8}
    (hbuf : slice s.mReadBuf 0 p.toBytes.length = p.toBytes) (hsize : p.toBytes.length = size)
    (hblank : blank.length = size) : s.memcpyS p.toBytes.length size blank = some p.toBytes := by
  have hle := p.length_toBytes_le
  have hbufsize : RECV_BUF_SIZE = 4096 := rfl
  rw [memcpyS, if_pos (by omega), hbuf, List.drop_of_length_le (by omega), List.append_nil]

/-- `HandleReadPayload` on a whole packet of the server's. -/
theorem handleReadPayload_spec (s : ClientSession) (p : OutPacket)
    (hbuf : slice s.mReadBuf 0 p.toBytes.length = p.toBytes) :
    ∃ s', s.handleReadPayload false = some s' ∧ s'.reading = some headerRead ∧
      s'.payloads = s.payloads ++ [seen p] := by
  have hheader : slice s.mReadBuf 0 sizeofPacketHeader = p.header.toBytes := by
    rw [← take_slice s.mReadBuf 0 p.toBytes.length _ p.sizeofPacketHeader_le, hbuf, p.take_toBytes]
  obtain ⟨hlen, htype⟩ := decode_header hheader
  rw [toNat_mSize] at hlen
  unfold handleReadPayload
  simp only [hlen, htype, Bool.false_eq_true, if_false]
  cases p with
  | loginResult q =>
      have hsize : (OutPacket.loginResult q).toBytes.length = sizeofLoginResult :=
        OutPacket.length_toBytes _
      have hof : (OutPacket.loginResult q).header = LoginResult.header := rfl
      rw [hof, if_pos (by decide),
        memcpyS_whole hbuf hsize Received.LoginResult.length_blank]
      refine ⟨_, rfl, rfl, ?_⟩
      have hread : Received.LoginResult.ofBytes (OutPacket.loginResult q).toBytes = _ :=
        q.ofBytes_toBytes
      simp only [postReadHeader, called, hread, seen, hsize]
      rfl
  | chatBroadcastResult q =>
      have hsize : (OutPacket.chatBroadcastResult q).toBytes.length
          = sizeofChatBroadcastResult := OutPacket.length_toBytes _
      have hof : (OutPacket.chatBroadcastResult q).header = ChatBroadcastResult.header := rfl
      rw [hof, if_neg (by decide), if_pos (by decide),
        memcpyS_whole hbuf hsize Received.ChatBroadcastResult.length_blank]
      refine ⟨_, rfl, rfl, ?_⟩
      have hread : Received.ChatBroadcastResult.ofBytes (OutPacket.chatBroadcastResult q).toBytes
          = _ := q.ofBytes_toBytes
      simp only [postReadHeader, called, hread, seen, hsize]
      rfl
  | moveBroadcastResult q =>
      have hsize : (OutPacket.moveBroadcastResult q).toBytes.length
          = sizeofMoveBroadcastResult := OutPacket.length_toBytes _
      have hof : (OutPacket.moveBroadcastResult q).header = MoveBroadcastResult.header := rfl
      rw [hof, if_neg (by decide), if_neg (by decide), if_pos (by decide),
        memcpyS_whole hbuf hsize Received.MoveBroadcastResult.length_blank]
      refine ⟨_, rfl, rfl, ?_⟩
      have hread : Received.MoveBroadcastResult.ofBytes (OutPacket.moveBroadcastResult q).toBytes
          = _ := q.ofBytes_toBytes
      simp only [postReadHeader, called, hread, seen, hsize]
      split
      · rfl
      · rfl

/-- The payload has come: the packet lies whole in `mReadBuf`. -/
theorem completed_payload (s : ClientSession) (p : OutPacket)
    (hheader : slice s.mReadBuf 0 sizeofPacketHeader = p.header.toBytes) :
    ∃ s', s.completed (payloadRead p) false (p.toBytes.drop sizeofPacketHeader) = some s' ∧
      s'.reading = some headerRead ∧ s'.payloads = s.payloads ++ [seen p] := by
  have hsplit : p.header.toBytes ++ p.toBytes.drop sizeofPacketHeader = p.toBytes := by
    rw [← p.take_toBytes, List.take_append_drop]
  have happend := slice_memcpy_append s.mReadBuf 0 sizeofPacketHeader
    (p.toBytes.drop sizeofPacketHeader)
  have hle := p.sizeofPacketHeader_le
  have hlen : sizeofPacketHeader + (p.toBytes.drop sizeofPacketHeader).length
      = p.toBytes.length := by
    rw [List.length_drop]
    omega
  rw [hheader, hsplit, hlen, Nat.zero_add] at happend
  obtain ⟨s', hs', hreading, hpayloads⟩ := handleReadPayload_spec
    { s with
      mReadBuf := memcpy s.mReadBuf sizeofPacketHeader (p.toBytes.drop sizeofPacketHeader)
      reading := none } p happend
  refine ⟨s', ?_, hreading, hpayloads⟩
  unfold completed
  rw [if_pos (payloadRead_inside p)]
  exact hs'

/-! ## The stream -/

theorem feed_succ {r : AsyncRead} {n : Nat} {bytes : List UInt8} (hreading : s.reading = some r)
    (henough : r.len ≤ bytes.length)
    (hcompleted : s.completed r false (bytes.take r.len) = some s') :
    feed (n + 1) s bytes = feed n s' (bytes.drop r.len) := by
  simp only [feed, hreading, if_neg (Nat.not_lt.mpr henough), hcompleted, Option.bind_some]

/-- The header of the packet at the front is read, with the packet's own
    length as the length of what is read next. -/
theorem feed_header (hreading : s.reading = some headerRead) (p : OutPacket)
    (rest : List UInt8) :
    ∃ s', feed 1 s (p.toBytes ++ rest) = some (s', p.toBytes.drop sizeofPacketHeader ++ rest) ∧
      s'.reading = some (payloadRead p) ∧ s'.payloads = s.payloads ∧
      slice s'.mReadBuf 0 sizeofPacketHeader = p.header.toBytes := by
  obtain ⟨s', hcompleted, hspec⟩ := completed_header s p
  have hle := p.sizeofPacketHeader_le
  refine ⟨s', ?_, hspec⟩
  have htake : (p.toBytes ++ rest).take sizeofPacketHeader
      = p.toBytes.take sizeofPacketHeader := List.take_append_of_le_length hle
  rw [feed_succ hreading (by
    rw [List.length_append]
    exact Nat.le_add_right_of_le hle) (htake ▸ hcompleted)]
  rw [feed, headerRead, List.drop_append_of_le_length hle]

/-- The rest of the packet is read, and its callback sees the packet. -/
theorem feed_payload {p : OutPacket} (hreading : s.reading = some (payloadRead p))
    (hheader : slice s.mReadBuf 0 sizeofPacketHeader = p.header.toBytes) (rest : List UInt8) :
    ∃ s', feed 1 s (p.toBytes.drop sizeofPacketHeader ++ rest) = some (s', rest) ∧
      s'.reading = some headerRead ∧ s'.payloads = s.payloads ++ [seen p] := by
  obtain ⟨s', hcompleted, hspec⟩ := completed_payload s p hheader
  have hlen : (p.toBytes.drop sizeofPacketHeader).length = (payloadRead p).len :=
    List.length_drop
  refine ⟨s', ?_, hspec⟩
  have htake : (p.toBytes.drop sizeofPacketHeader ++ rest).take (payloadRead p).len
      = p.toBytes.drop sizeofPacketHeader := List.take_left' hlen
  rw [feed_succ hreading (by
    rw [List.length_append]
    exact Nat.le_add_right_of_le (Nat.le_of_eq hlen.symm)) (htake ▸ hcompleted)]
  rw [feed, List.drop_left' hlen]

/-- Without enough bytes for the outstanding read nothing happens. -/
theorem feed_of_short {bytes : List UInt8}
    (hshort : ∀ r, s.reading = some r → bytes.length < r.len) (n : Nat) :
    feed n s bytes = some (s, bytes) := by
  cases n with
  | zero => rfl
  | succ n =>
      rw [feed]
      cases hreading : s.reading with
      | none => rfl
      | some r => exact if_pos (hshort r hreading)

theorem feed_add (a b : Nat) (s : ClientSession) (bytes : List UInt8) :
    feed (a + b) s bytes = (feed a s bytes).bind (fun r => feed b r.1 r.2) := by
  induction a generalizing s bytes with
  | zero =>
      rw [Nat.zero_add]
      rfl
  | succ a ih =>
      rw [Nat.succ_add, feed, feed]
      cases hreading : s.reading with
      | none =>
          refine (feed_of_short (fun r hr => ?_) b).symm
          cases hreading.symm.trans hr
      | some r =>
          by_cases hshort : bytes.length < r.len
          · simp only [if_pos hshort, Option.bind_some]
            refine (feed_of_short (fun r' hr' => ?_) b).symm
            cases hreading.symm.trans hr'
            exact hshort
          · simp only [if_neg hshort, Option.bind_assoc, ih]

/-- Two completions for each packet. -/
theorem feed_packets (k : Nat) {packets : List OutPacket} (hk : k ≤ packets.length)
    (hreading : s.reading = some headerRead) :
    ∃ s', feed (2 * k) s (stream packets) = some (s', stream (packets.drop k)) ∧
      s'.reading = some headerRead ∧
      s'.payloads = s.payloads ++ (packets.take k).map seen := by
  induction k generalizing s packets with
  | zero => exact ⟨s, rfl, hreading, (List.append_nil _).symm⟩
  | succ k ih =>
      cases packets with
      | nil => exact absurd hk (Nat.not_succ_le_zero k)
      | cons p packets =>
          obtain ⟨s₁, hfeed₁, hreading₁, hpayloads₁, hheader⟩ :=
            feed_header hreading p (stream packets)
          obtain ⟨s₂, hfeed₂, hreading₂, hpayloads₂⟩ :=
            feed_payload hreading₁ hheader (stream packets)
          obtain ⟨s', hfeed, hreading', hpayloads⟩ := ih (Nat.le_of_succ_le_succ hk) hreading₂
          refine ⟨s', ?_, hreading', ?_⟩
          · have hsplit : 2 * (k + 1) = 1 + (1 + 2 * k) := by omega
            have hstream : stream (p :: packets) = p.toBytes ++ stream packets := rfl
            rw [hsplit, hstream, feed_add, hfeed₁, Option.bind_some, feed_add, hfeed₂,
              Option.bind_some]
            exact hfeed
          · rw [hpayloads, hpayloads₂, hpayloads₁, List.append_assoc]
            rfl

/-- **The packets of the server, one callback each.**  Connect, and let the
    bytes of any packets of the server's come: after two completions for each
    of the first `k` packets the stream is cut exactly behind them, and the
    payload callbacks have seen these packets, the struct each was copied to
    being as long as the packet.  After one more the stream is cut behind the
    next header, and what is read next is the rest of that packet, inside
    `mReadBuf`. -/
theorem callbacks_see_packets (s : ClientSession) (packets : List OutPacket) :
    (∀ k ≤ packets.length, ∃ s',
      feed (2 * k) s.handleConnect (stream packets) = some (s', stream (packets.drop k)) ∧
        s'.reading = some headerRead ∧
        s'.payloads = s.payloads ++ (packets.take k).map seen) ∧
      ∀ k (hk : k < packets.length), ∃ s',
        feed (2 * k + 1) s.handleConnect (stream packets)
            = some (s', packets[k].toBytes.drop sizeofPacketHeader
              ++ stream (packets.drop (k + 1))) ∧
          s'.reading = some (payloadRead packets[k]) ∧
          (payloadRead packets[k]).offset + (payloadRead packets[k]).len ≤ RECV_BUF_SIZE := by
  have hreading : s.handleConnect.reading = some headerRead := rfl
  refine ⟨fun k hk => feed_packets k hk hreading, fun k hk => ?_⟩
  obtain ⟨s₁, hfeed₁, hreading₁, -⟩ := feed_packets k (Nat.le_of_lt hk) hreading
  have hdrop : stream (packets.drop k)
      = packets[k].toBytes ++ stream (packets.drop (k + 1)) := by
    rw [List.drop_eq_getElem_cons hk]
    rfl
  obtain ⟨s₂, hfeed₂, hreading₂, -⟩ := feed_header hreading₁ packets[k]
    (stream (packets.drop (k + 1)))
  refine ⟨s₂, ?_, hreading₂, payloadRead_inside _⟩
  rw [feed_add, hfeed₁, Option.bind_some, hdrop]
  exact hfeed₂

theorem callbacks_see_packets_move :
    ∃ s', feed 2 (create 7 (fun _ => 0) 0 0).handleConnect
        (stream [.moveBroadcastResult ⟨7, 1, 2⟩]) = some (s', []) ∧
      s'.payloads = [seen (.moveBroadcastResult ⟨7, 1, 2⟩)] := by
  obtain ⟨s', hfeed, -, hpayloads⟩ := (callbacks_see_packets (create 7 (fun _ => 0) 0 0)
    [.moveBroadcastResult ⟨7, 1, 2⟩]).1 1 (Nat.le_refl 1)
  exact ⟨s', hfeed, hpayloads⟩

end ClientSession
end DummyClient
end EasyGameServer
