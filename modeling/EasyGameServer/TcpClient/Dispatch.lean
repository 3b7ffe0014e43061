/-
  EasyGameServer.TcpClient.Dispatch

  The server's stream through the client.  One iteration of `processPacket`
  handles the packet at the front if all of it has arrived, and leaves
  otherwise; so between two pieces the buffer holds a part of one packet, and a
  ring of 32768 bytes has room for 4096 more.
-/

import EasyGameServer.TcpClient

namespace EasyGameServer

open Lib
open OutPacket (stream stream_append)

namespace TcpClient

variable {client client' : TcpClient} {ndebug : Bool}

-- ============================================================================
-- One packet
-- ============================================================================

/-- A handled packet: its bytes are logged and off the buffer. -/
structure Took (client : TcpClient) (recvData : List UInt8) (client' : TcpClient) : Prop where
  valid : client'.mRecvBuffer.Valid
  contents : client'.mRecvBuffer.contents = client.mRecvBuffer.contents.drop recvData.length
  capacity : client'.mRecvBuffer.mBufferEnd = client.mRecvBuffer.mBufferEnd
  dispatched : client'.dispatched = client.dispatched ++ [recvData]

/-- A handler touches neither the buffer nor the log. -/
def Frames (handle : List UInt8 → TcpClient → TcpClient) : Prop :=
  ∀ recvData client, (handle recvData client).mRecvBuffer = client.mRecvBuffer ∧
    (handle recvData client).dispatched = client.dispatched

theorem frames_handleLogin : Frames handleLogin := fun _ _ => ⟨rfl, rfl⟩

theorem frames_handleChat : Frames handleChat := fun _ _ => ⟨rfl, rfl⟩

theorem frames_handleMove : Frames handleMove := by
  intro recvData client
  unfold handleMove
  simp only
  split
  · exact ⟨rfl, rfl⟩
  · exact ⟨rfl, rfl⟩

theorem takePacket_spec (hv : client.mRecvBuffer.Valid) {recvData : List UInt8} {size : Nat}
    (hsize : recvData.length = size) (hfront : recvData <+: client.mRecvBuffer.contents)
    (hasserts : Asserts recvData) (blank : List UInt8)
    {handle : List UInt8 → TcpClient → TcpClient} (hframes : Frames handle) :
    ∃ client', client.takePacket ndebug size blank handle = .again client' ∧
      Took client recvData client' := by
  have hstored : size ≤ client.mRecvBuffer.getStoredSize := by
    rw [← hsize, ← CircularBuffer.length_contents]
    exact hfront.length_le
  obtain ⟨rest, hread, hv', hcontents, hend⟩ := CircularBuffer.read_spec hv hstored
  have htake : client.mRecvBuffer.contents.take size = recvData := by
    rw [← hsize]
    exact (List.prefix_iff_eq_take.mp hfront).symm
  rw [htake] at hread
  have hinto : client.readInto size blank = (true, recvData, client.logged recvData rest) := by
    simp only [readInto, hread]
  obtain ⟨hbuffer, hlog⟩ := hframes recvData (client.logged recvData rest)
  refine ⟨handle recvData (client.logged recvData rest), ?_, ?_⟩
  · unfold takePacket
    rw [hinto]
    exact if_neg (fun h => h.2 ⟨rfl, hasserts⟩)
  · constructor
    · rw [hbuffer]
      exact hv'
    · rw [hbuffer, hsize]
      exact hcontents
    · rw [hbuffer]
      exact hend
    · exact hlog

/-- The iteration, once a header has arrived. -/
theorem processPacketBody_of_header {header : PacketHeader}
    (hstored : sizeofPacketHeader ≤ client.mRecvBuffer.contents.length)
    (hheader : PacketHeader.ofBytes client.mRecvBuffer.contents = header) :
    processPacketBody ndebug client =
      if client.mRecvBuffer.contents.length < shortToSize header.mSize then .leave (some client)
      else if header.mType = PacketTypes.pktScLogin.value then
        client.takePacket ndebug sizeofLoginResult Received.LoginResult.blank handleLogin
      else if header.mType = PacketTypes.pktScChat.value then
        client.takePacket ndebug sizeofChatBroadcastResult Received.ChatBroadcastResult.blank
          handleChat
      else if header.mType = PacketTypes.pktScMove.value then
        client.takePacket ndebug sizeofMoveBroadcastResult Received.MoveBroadcastResult.blank
          handleMove
      else if ndebug then .again client
      else .leave none := by
  have hlen := CircularBuffer.length_contents client.mRecvBuffer
  have hpeek := CircularBuffer.peek_spec client.mRecvBuffer sizeofPacketHeader
  have hof := PacketHeader.ofBytes_take client.mRecvBuffer.contents
    (Nat.le_refl sizeofPacketHeader)
  rw [if_pos (by omega)] at hpeek
  unfold processPacketBody
  simp only [hpeek, hof, hheader, hlen, gt_iff_lt]

/-- A packet whose last byte has arrived is handled. -/
theorem processPacketBody_whole (hv : client.mRecvBuffer.Valid) (ndebug : Bool) {p : OutPacket}
    (hfront : p.toBytes <+: client.mRecvBuffer.contents) (hid : p.mPlayerId ≠ -1) :
    ∃ client', processPacketBody ndebug client = .again client' ∧
      Took client p.toBytes client' := by
  have hle := hfront.length_le
  have hheaderLe := p.sizeofPacketHeader_le
  have hheader : PacketHeader.ofBytes client.mRecvBuffer.contents = p.header := by
    rw [← p.ofBytes_toBytes, List.prefix_iff_eq_take.mp hfront]
    exact (PacketHeader.ofBytes_take _ hheaderLe).symm
  have hasserts : Asserts p.toBytes := by
    rw [Asserts, p.int32At_toBytes]
    exact hid
  have hsize : ¬ client.mRecvBuffer.contents.length < shortToSize p.header.mSize := by
    have hlength := p.length_toBytes
    rw [OutPacket.mSize] at hlength
    omega
  rw [processPacketBody_of_header (by omega) hheader, if_neg hsize]
  cases p with
  | loginResult q =>
      have htype : (OutPacket.loginResult q).header = LoginResult.header := rfl
      rw [htype, if_pos (by decide)]
      exact takePacket_spec hv (OutPacket.loginResult q).length_toBytes hfront hasserts _
        frames_handleLogin
  | chatBroadcastResult q =>
      have htype : (OutPacket.chatBroadcastResult q).header = ChatBroadcastResult.header := rfl
      rw [htype, if_neg (by decide), if_pos (by decide)]
      exact takePacket_spec hv (OutPacket.chatBroadcastResult q).length_toBytes hfront hasserts _
        frames_handleChat
  | moveBroadcastResult q =>
      have htype : (OutPacket.moveBroadcastResult q).header = MoveBroadcastResult.header := rfl
      rw [htype, if_neg (by decide), if_neg (by decide), if_pos (by decide)]
      exact takePacket_spec hv (OutPacket.moveBroadcastResult q).length_toBytes hfront hasserts _
        frames_handleMove

theorem processPacketBody_short
    (hshort : client.mRecvBuffer.contents.length < sizeofPacketHeader) :
    processPacketBody ndebug client = .leave (some client) := by
  have hpeek := CircularBuffer.peek_spec client.mRecvBuffer sizeofPacketHeader
  rw [← CircularBuffer.length_contents, if_neg (Nat.not_le.mpr hshort)] at hpeek
  unfold processPacketBody
  rw [hpeek]

/-- A packet that is still on its way is waited for. -/
theorem processPacketBody_part {p : OutPacket}
    (hpart : client.mRecvBuffer.contents <+: p.toBytes)
    (hlt : client.mRecvBuffer.contents.length < p.toBytes.length) :
    processPacketBody ndebug client = .leave (some client) := by
  by_cases hstored : sizeofPacketHeader ≤ client.mRecvBuffer.contents.length
  · have hheader : PacketHeader.ofBytes client.mRecvBuffer.contents = p.header := by
      rw [← p.ofBytes_toBytes, List.prefix_iff_eq_take.mp hpart]
      exact PacketHeader.ofBytes_take _ hstored
    rw [processPacketBody_of_header hstored hheader, if_pos]
    rw [← OutPacket.mSize, ← p.length_toBytes]
    exact hlt
  · exact processPacketBody_short (Nat.lt_of_not_le hstored)

-- ============================================================================
-- All packets that have arrived
-- ============================================================================

/-- In the middle of a stream: these packets have been handled, the others are
    still to come, and the buffer holds the beginning of their bytes. -/
structure Midway (client : TcpClient) (done rest : List OutPacket) : Prop where
  valid : client.mRecvBuffer.Valid
  capacity : client.mRecvBuffer.mBufferEnd = BUF_SIZE
  dispatched : client.dispatched = done.map OutPacket.toBytes
  contents : client.mRecvBuffer.contents <+: stream rest

/-- What `processPacket` leaves: no whole packet. -/
def Waiting (client : TcpClient) (rest : List OutPacket) : Prop :=
  complete (rest.map OutPacket.toBytes) client.mRecvBuffer.contents.length = []

theorem Midway.step {done rest : List OutPacket} {p : OutPacket}
    (h : Midway client done (p :: rest)) (ndebug : Bool)
    (hwhole : p.toBytes.length ≤ client.mRecvBuffer.contents.length) (hid : p.mPlayerId ≠ -1) :
    ∃ client', processPacketBody ndebug client = .again client' ∧
      Midway client' (done ++ [p]) rest ∧
      client.mRecvBuffer.contents = p.toBytes ++ client'.mRecvBuffer.contents := by
  obtain ⟨hcontents, hrest⟩ := prefix_drop h.contents hwhole
  obtain ⟨client', hbody, htook⟩ := processPacketBody_whole h.valid ndebug
    (hcontents ▸ List.prefix_append ..) hid
  refine ⟨client', hbody, ?_, ?_⟩
  · constructor
    · exact htook.valid
    · exact htook.capacity.trans h.capacity
    · rw [htook.dispatched, h.dispatched, List.map_append]
      rfl
    · rw [htook.contents]
      exact hrest
  · rw [htook.contents]
    exact hcontents

/-- `processPacket` handles every packet that has arrived and leaves. -/
theorem processPacket_spec {done rest : List OutPacket} (h : Midway client done rest)
    (ndebug : Bool) (hid : ∀ p ∈ rest, p.mPlayerId ≠ -1) {bound : Nat}
    (hbound : client.mRecvBuffer.contents.length < bound) :
    ∃ client' now rest', loop (processPacketBody ndebug) bound client = some (some client') ∧
      rest = now ++ rest' ∧ Midway client' (done ++ now) rest' ∧ Waiting client' rest' ∧
      client.mRecvBuffer.contents = stream now ++ client'.mRecvBuffer.contents := by
  induction rest generalizing client done bound with
  | nil =>
      have hempty : client.mRecvBuffer.contents = [] := List.prefix_nil.mp h.contents
      have hleave : processPacketBody ndebug client = .leave (some client) := by
        apply processPacketBody_short
        rw [hempty]
        decide
      obtain ⟨n, rfl⟩ := Nat.exists_eq_succ_of_ne_zero (Nat.ne_zero_of_lt hbound)
      refine ⟨client, [], [], loop_succ_leave hleave n, rfl, ?_, rfl, rfl⟩
      rw [List.append_nil]
      exact h
  | cons p rest ih =>
      obtain ⟨n, rfl⟩ := Nat.exists_eq_succ_of_ne_zero (Nat.ne_zero_of_lt hbound)
      by_cases hwhole : p.toBytes.length ≤ client.mRecvBuffer.contents.length
      · obtain ⟨client₁, hbody, hmid, hcontents⟩ := h.step ndebug hwhole
          (hid p List.mem_cons_self)
        have hheader := p.sizeofPacketHeader_le
        have hlength := congrArg List.length hcontents
        rw [List.length_append] at hlength
        have hfour : sizeofPacketHeader = 4 := rfl
        obtain ⟨client', now, rest', hloop, hrest, hmid', hwaiting, hcontents'⟩ := ih hmid
          (fun q hq => hid q (List.mem_cons_of_mem _ hq)) (show _ < n by omega)
        refine ⟨client', p :: now, rest', (loop_succ_again hbody n).trans hloop, ?_, ?_, hwaiting,
          ?_⟩
        · rw [hrest, List.cons_append]
        · rw [List.append_assoc] at hmid'
          exact hmid'
        · rw [hcontents, hcontents', ← List.append_assoc]
          rfl
      · have hpart : client.mRecvBuffer.contents <+: p.toBytes :=
          List.prefix_of_prefix_length_le h.contents (List.prefix_append ..) (by omega)
        have hleave : processPacketBody ndebug client = .leave (some client) :=
          processPacketBody_part hpart (by omega)
        refine ⟨client, [], p :: rest, loop_succ_leave hleave n, rfl, ?_, ?_, rfl⟩
        · rw [List.append_nil]
          exact h
        · exact complete_cons_of_lt (by omega) _

-- ============================================================================
-- The thread
-- ============================================================================

/-- Less than a packet waits, so a piece of 4096 bytes finds room. -/
theorem Midway.write {done rest : List OutPacket} (h : Midway client done rest)
    (hwaiting : Waiting client rest) {chunk : List UInt8} (hchunk : chunk.length ≤ inBufSize)
    (hpre : client.mRecvBuffer.contents ++ chunk <+: stream rest) :
    (client.mRecvBuffer.write chunk chunk.length).1 = true ∧
      Midway { client with mRecvBuffer := (client.mRecvBuffer.write chunk chunk.length).2 }
        done rest ∧
      (client.mRecvBuffer.write chunk chunk.length).2.contents
        = client.mRecvBuffer.contents ++ chunk := by
  have hshort : client.mRecvBuffer.contents.length ≤ 294 := by
    cases rest with
    | nil =>
        have hempty : client.mRecvBuffer.contents = [] := List.prefix_nil.mp h.contents
        rw [hempty]
        exact Nat.zero_le _
    | cons p rest =>
        have hle := p.length_toBytes_le
        by_contra hlong
        rw [Waiting, List.map_cons, complete_cons_of_le (by omega)] at hwaiting
        cases hwaiting
  have hlen := CircularBuffer.length_contents client.mRecvBuffer
  have hhalf := CircularBuffer.half_capacity h.valid
  have hcapacity := h.capacity
  have hsizes : BUF_SIZE = 32768 ∧ inBufSize = 4096 := ⟨rfl, rfl⟩
  obtain ⟨hv, hcontents, hend, hok⟩ := CircularBuffer.write_spec h.valid chunk chunk.length
    (Nat.le_refl _)
  have htrue : (client.mRecvBuffer.write chunk chunk.length).1 = true := hok.mpr (by omega)
  rw [htrue, if_pos rfl, List.take_length] at hcontents
  refine ⟨htrue, ⟨hv, hend.trans hcapacity, h.dispatched, ?_⟩, hcontents⟩
  change (client.mRecvBuffer.write chunk chunk.length).2.contents <+: stream rest
  rw [hcontents]
  exact hpre

theorem networkThread_spec {done rest : List OutPacket} (h : Midway client done rest)
    (hwaiting : Waiting client rest) (ndebug : Bool) (hid : ∀ p ∈ rest, p.mPlayerId ≠ -1)
    {chunks : List (List UInt8)} (hchunks : ∀ chunk ∈ chunks, chunk.length ≤ inBufSize)
    (hpre : client.mRecvBuffer.contents ++ chunks.flatten <+: stream rest) :
    ∃ client' now rest', networkThread ndebug (BUF_SIZE + 1) client chunks = some client' ∧
      rest = now ++ rest' ∧ Midway client' (done ++ now) rest' ∧ Waiting client' rest' ∧
      client.mRecvBuffer.contents ++ chunks.flatten
        = stream now ++ client'.mRecvBuffer.contents := by
  induction chunks generalizing client done rest with
  | nil =>
      refine ⟨client, [], rest, rfl, rfl, ?_, hwaiting, List.append_nil _⟩
      rw [List.append_nil]
      exact h
  | cons chunk chunks ih =>
      have hchunk := hchunks chunk List.mem_cons_self
      rw [List.flatten_cons, ← List.append_assoc] at hpre ⊢
      obtain ⟨hok, hwritten, hcontents₁⟩ := h.write hwaiting hchunk
        ((List.prefix_append ..).trans hpre)
      have hle := hwritten.valid.getStoredSize_le
      rw [hwritten.capacity, ← CircularBuffer.length_contents] at hle
      obtain ⟨client₂, now₁, rest₁, hloop, hrest, hmid, hwaits, hcontents₂⟩ :=
        processPacket_spec hwritten ndebug hid (Nat.lt_succ_of_le hle)
      have hsplit : client.mRecvBuffer.contents ++ chunk
          = stream now₁ ++ client₂.mRecvBuffer.contents := hcontents₁.symm.trans hcontents₂
      rw [hsplit, List.append_assoc] at hpre ⊢
      rw [hrest, stream_append] at hpre
      obtain ⟨client', now₂, rest', hthread, hrest₂, hmid', hwaits', hcontents'⟩ := ih hmid hwaits
        (fun p hp => hid p (by
          rw [hrest]
          exact List.mem_append_right _ hp))
        (fun c hc => hchunks c (List.mem_cons_of_mem _ hc))
        ((List.prefix_append_right_inj _).mp hpre)
      refine ⟨client', now₁ ++ now₂, rest', ?_, ?_, ?_, hwaits', ?_⟩
      · simp only [networkThread, hok, hloop, Bool.true_eq_false, and_false, if_false]
        exact hthread
      · rw [hrest, hrest₂, List.append_assoc]
      · rw [← List.append_assoc]
        exact hmid'
      · rw [hcontents', stream_append, List.append_assoc]

/-- **The client's stream.**  For every sequence of packets that name somebody
    and every way their bytes, or the first of them, arrive in pieces of 1 to
    4096: no assertion of `networkThread` and `processPacket` fails, each
    `processPacket` ends, and the packets that were handled are those that have
    arrived whole, each once, in order and byte by byte. -/
theorem dispatches_arrived (mem : Nat → UInt8) (packets : List OutPacket)
    (chunks : List (List UInt8)) (hid : ∀ p ∈ packets, p.mPlayerId ≠ -1)
    (hchunks : ∀ chunk ∈ chunks, 1 ≤ chunk.length ∧ chunk.length ≤ inBufSize)
    (hsplit : chunks.flatten <+: stream packets) :
    ∃ client, networkThread false (BUF_SIZE + 1) (new mem) chunks = some client ∧
      client.dispatched = complete (packets.map OutPacket.toBytes) chunks.flatten.length := by
  have hempty : (new mem).mRecvBuffer.contents = [] := CircularBuffer.contents_new BUF_SIZE mem
  have hmid : Midway (new mem) [] packets := by
    refine ⟨CircularBuffer.valid_new BUF_SIZE mem, rfl, rfl, ?_⟩
    rw [hempty]
    exact List.nil_prefix
  have hwaiting : Waiting (new mem) packets := by
    rw [Waiting, hempty]
    cases packets with
    | nil => rfl
    | cons p packets =>
        have hheader := p.sizeofPacketHeader_le
        exact complete_cons_of_lt (Nat.lt_of_lt_of_le (by decide) hheader) _
  obtain ⟨client, now, rest, hthread, hrest, hdone, hwaits, hcontents⟩ :=
    networkThread_spec hmid hwaiting false hid (fun c hc => (hchunks c hc).2) (by
      rw [hempty]
      exact hsplit)
  refine ⟨client, hthread, ?_⟩
  rw [hempty, List.nil_append] at hcontents
  have hflat : chunks.flatten.length
      = (now.map OutPacket.toBytes).flatten.length + client.mRecvBuffer.contents.length := by
    rw [hcontents, List.length_append]
    rfl
  rw [hrest, hflat, List.map_append, complete_append, hwaits, List.append_nil]
  exact hdone.dispatched

/-- A move result in two pieces, the second with the beginning of another. -/
theorem dispatches_arrived_split :
    ∃ client, networkThread false (BUF_SIZE + 1) (new (fun _ => 0))
        [(OutPacket.moveBroadcastResult ⟨7, 1, 2⟩).toBytes.take 3,
          (OutPacket.moveBroadcastResult ⟨7, 1, 2⟩).toBytes.drop 3 ++ [16, 0]] = some client ∧
      client.dispatched = [(OutPacket.moveBroadcastResult ⟨7, 1, 2⟩).toBytes] := by
  obtain ⟨client, hthread, hdispatched⟩ := dispatches_arrived (fun _ => 0)
    [.moveBroadcastResult ⟨7, 1, 2⟩, .moveBroadcastResult ⟨8, 3, 4⟩]
    [(OutPacket.moveBroadcastResult ⟨7, 1, 2⟩).toBytes.take 3,
      (OutPacket.moveBroadcastResult ⟨7, 1, 2⟩).toBytes.drop 3 ++ [16, 0]]
    (by decide) (by decide) (by decide)
  exact ⟨client, hthread, hdispatched⟩

end TcpClient
end EasyGameServer
