/-
  EasyGameServer.TcpClient.ProcessPacket

  When the loop of `processPacket` ends in a build that has no assertions.

  An iteration goes by two sizes: it waits for the bytes the header declares,
  and reads the struct of the header's type.  Where fewer bytes than that
  struct are there the read fails, and for a type without a struct there is no
  read; both are only asserted, and the same header is looked at again.
-/

import EasyGameServer.TcpClient.Dispatch
import EasyGameServer.CircularBuffer.Fifo

namespace EasyGameServer

open Lib

namespace TcpClient

-- ============================================================================
-- The bytes
-- ============================================================================

/-- The size of the struct a packet of this type is read into. -/
def structSize (mType : Int16) : Option Nat :=
  if mType = PacketTypes.pktScLogin.value then some sizeofLoginResult
  else if mType = PacketTypes.pktScChat.value then some sizeofChatBroadcastResult
  else if mType = PacketTypes.pktScMove.value then some sizeofMoveBroadcastResult
  else none

theorem structSize_pos {mType : Int16} {size : Nat} (h : structSize mType = some size) :
    0 < size := by
  unfold structSize at h
  split at h
  · cases h
    decide
  · split at h
    · cases h
      decide
    · split at h
      · cases h
        decide
      · cases h

/-- A header is there, and as many bytes as it declares. -/
structure Arrived (bs : List UInt8) : Prop where
  header : sizeofPacketHeader ≤ bs.length
  declared : shortToSize (PacketHeader.ofBytes bs).mSize ≤ bs.length

/-- Walking the bytes by the sizes of the structs comes to a packet that has
    arrived and is not read off: one of a type without a struct, or one of
    which fewer bytes are there than its struct has. -/
inductive Clogged : List UInt8 → Prop
  | unknown {bs : List UInt8} (ha : Arrived bs)
      (ht : structSize (PacketHeader.ofBytes bs).mType = none) : Clogged bs
  | short {bs : List UInt8} {size : Nat} (ha : Arrived bs)
      (ht : structSize (PacketHeader.ofBytes bs).mType = some size)
      (hs : bs.length < size) : Clogged bs
  | next {bs : List UInt8} {size : Nat} (ha : Arrived bs)
      (ht : structSize (PacketHeader.ofBytes bs).mType = some size) (hs : size ≤ bs.length)
      (hn : Clogged (bs.drop size)) : Clogged bs

theorem Clogged.arrived {bs : List UInt8} (h : Clogged bs) : Arrived bs := by
  cases h with
  | unknown ha _ => exact ha
  | short ha _ _ => exact ha
  | next ha _ _ _ => exact ha

/-- Behind a struct that is read off nothing changes. -/
theorem clogged_drop_iff {bs : List UInt8} {size : Nat} (ha : Arrived bs)
    (ht : structSize (PacketHeader.ofBytes bs).mType = some size) (hs : size ≤ bs.length) :
    Clogged bs ↔ Clogged (bs.drop size) := by
  constructor
  · intro h
    cases h with
    | unknown _ ht' => cases ht.symm.trans ht'
    | short _ ht' hs' =>
        cases ht.symm.trans ht'
        omega
    | next _ ht' _ hn =>
        cases ht.symm.trans ht'
        exact hn
  · exact .next ha ht hs

-- ============================================================================
-- One iteration
-- ============================================================================

variable {client : TcpClient}

theorem processPacketBody_of_not_arrived {ndebug : Bool}
    (h : ¬ Arrived client.mRecvBuffer.contents) :
    processPacketBody ndebug client = .leave (some client) := by
  by_cases hheader : sizeofPacketHeader ≤ client.mRecvBuffer.contents.length
  · rw [processPacketBody_of_header hheader rfl]
    apply if_pos
    by_contra hge
    exact h ⟨hheader, Nat.le_of_not_lt hge⟩
  · exact processPacketBody_short (Nat.lt_of_not_le hheader)

/-- A packet of an unknown type stays where it is. -/
theorem processPacketBody_of_unknown (ha : Arrived client.mRecvBuffer.contents)
    (ht : structSize (PacketHeader.ofBytes client.mRecvBuffer.contents).mType = none) :
    processPacketBody true client = .again client := by
  unfold structSize at ht
  rw [processPacketBody_of_header ha.header rfl, if_neg (Nat.not_lt.mpr ha.declared)]
  split at ht
  · cases ht
  next hlogin =>
    split at ht
    · cases ht
    next hchat =>
      split at ht
      · cases ht
      next hmove =>
        rw [if_neg hlogin, if_neg hchat, if_neg hmove]
        rfl

/-- A packet with a struct is read into it. -/
theorem processPacketBody_of_struct {size : Nat} (ha : Arrived client.mRecvBuffer.contents)
    (ht : structSize (PacketHeader.ofBytes client.mRecvBuffer.contents).mType = some size) :
    ∃ blank handle, Frames handle ∧
      processPacketBody true client = client.takePacket true size blank handle := by
  unfold structSize at ht
  rw [processPacketBody_of_header ha.header rfl, if_neg (Nat.not_lt.mpr ha.declared)]
  split at ht
  next hlogin =>
    cases ht
    rw [if_pos hlogin]
    exact ⟨_, _, frames_handleLogin, rfl⟩
  next hlogin =>
    rw [if_neg hlogin]
    split at ht
    next hchat =>
      cases ht
      rw [if_pos hchat]
      exact ⟨_, _, frames_handleChat, rfl⟩
    next hchat =>
      rw [if_neg hchat]
      split at ht
      next hmove =>
        cases ht
        rw [if_pos hmove]
        exact ⟨_, _, frames_handleMove, rfl⟩
      next => cases ht

/-- Without assertions the read goes unchecked: it takes the struct off the
    front, or leaves the buffer as it was when that is too short. -/
theorem takePacket_unchecked (hv : client.mRecvBuffer.Valid) (size : Nat) (blank : List UInt8)
    {handle : List UInt8 → TcpClient → TcpClient} (hframes : Frames handle) :
    ∃ client', client.takePacket true size blank handle = .again client' ∧
      client'.mRecvBuffer.Valid ∧
      client'.mRecvBuffer.contents =
        if size ≤ client.mRecvBuffer.contents.length then client.mRecvBuffer.contents.drop size
        else client.mRecvBuffer.contents := by
  have hgo : ∀ r, client.readInto size blank = r →
      client.takePacket true size blank handle = .again (handle r.2.1 r.2.2) := by
    rintro r rfl
    unfold takePacket
    apply if_neg
    rintro ⟨hdebug, -⟩
    cases hdebug
  by_cases hsize : size ≤ client.mRecvBuffer.contents.length
  · have hstored : size ≤ client.mRecvBuffer.getStoredSize := by
      rw [← CircularBuffer.length_contents]
      exact hsize
    obtain ⟨rest, hread, hv', hcontents, -⟩ := CircularBuffer.read_spec hv hstored
    have hinto : client.readInto size blank =
        (true, client.mRecvBuffer.contents.take size,
          client.logged (client.mRecvBuffer.contents.take size) rest) := by
      simp only [readInto, hread]
    refine ⟨_, hgo _ hinto, ?_⟩
    rw [(hframes _ _).1, if_pos hsize]
    exact ⟨hv', hcontents⟩
  · have hstored : client.mRecvBuffer.getStoredSize < size := by
      rw [← CircularBuffer.length_contents]
      exact Nat.lt_of_not_le hsize
    have hinto : client.readInto size blank = (false, blank, client) := by
      simp only [readInto, CircularBuffer.read_none hstored]
    refine ⟨_, hgo _ hinto, ?_⟩
    rw [(hframes _ _).1, if_neg hsize]
    exact ⟨hv, rfl⟩

/-- What one iteration does to the bytes. -/
theorem processPacketBody_unchecked (hv : client.mRecvBuffer.Valid) :
    (¬ Clogged client.mRecvBuffer.contents ∧ ∃ r, processPacketBody true client = .leave r) ∨
      ∃ client', processPacketBody true client = .again client' ∧ client'.mRecvBuffer.Valid ∧
        (Clogged client.mRecvBuffer.contents ↔ Clogged client'.mRecvBuffer.contents) ∧
        (Clogged client.mRecvBuffer.contents ∨
          client'.mRecvBuffer.getStoredSize < client.mRecvBuffer.getStoredSize) := by
  by_cases ha : Arrived client.mRecvBuffer.contents
  · right
    cases ht : structSize (PacketHeader.ofBytes client.mRecvBuffer.contents).mType with
    | none =>
        exact ⟨client, processPacketBody_of_unknown ha ht, hv, Iff.rfl, .inl (.unknown ha ht)⟩
    | some size =>
        obtain ⟨blank, handle, hframes, hbody⟩ := processPacketBody_of_struct ha ht
        obtain ⟨client', htake, hv', hcontents⟩ := takePacket_unchecked hv size blank hframes
        refine ⟨client', hbody.trans htake, hv', ?_⟩
        by_cases hs : size ≤ client.mRecvBuffer.contents.length
        · rw [if_pos hs] at hcontents
          have hpos := structSize_pos ht
          refine ⟨by rw [hcontents]; exact clogged_drop_iff ha ht hs, .inr ?_⟩
          rw [← CircularBuffer.length_contents, ← CircularBuffer.length_contents, hcontents,
            List.length_drop]
          omega
        · rw [if_neg hs] at hcontents
          rw [hcontents]
          exact ⟨Iff.rfl, .inl (.short ha ht (Nat.lt_of_not_le hs))⟩
  · exact .inl ⟨fun h => ha h.arrived, _, processPacketBody_of_not_arrived ha⟩

-- ============================================================================
-- The loop
-- ============================================================================

/-- **`processPacket` ends.**  Whatever bytes the client's buffer holds, in a
    build without assertions the loop of `processPacket` ends, with fewer bytes
    after every iteration that goes on, if and only if the bytes are not
    clogged. -/
theorem processPacket_advances_iff (client : TcpClient)
    (hr : CircularBuffer.Reachable BUF_SIZE client.mRecvBuffer) :
    Advances (processPacketBody true) (fun client => client.mRecvBuffer.getStoredSize) client ↔
      ¬ Clogged client.mRecvBuffer.contents := by
  let I : TcpClient → Prop := fun client => client.mRecvBuffer.Valid
  have hstart : I client := hr.valid
  exact advances_iff (fun _ hv => processPacketBody_unchecked hv) hstart

/-- The client after one `recv` has brought these bytes. -/
def received (mem : Nat → UInt8) (inBuf : List UInt8) : TcpClient :=
  { new mem with mRecvBuffer := ((new mem).mRecvBuffer.write inBuf inBuf.length).2 }

theorem reachable_received (mem : Nat → UInt8) (inBuf : List UInt8) :
    CircularBuffer.Reachable BUF_SIZE (received mem inBuf).mRecvBuffer :=
  ⟨mem, [.write inBuf inBuf.length], _, by
    simp only [Object.run, CircularBuffer.object, if_pos (Nat.le_refl _)]
    rfl⟩

theorem contents_received (mem : Nat → UInt8) {inBuf : List UInt8}
    (hfit : inBuf.length ≤ BUF_SIZE) :
    (received mem inBuf).mRecvBuffer.contents = inBuf := by
  obtain ⟨-, hcontents, -, hok⟩ := CircularBuffer.write_spec
    (CircularBuffer.valid_new BUF_SIZE mem) inBuf inBuf.length (Nat.le_refl _)
  rw [if_pos (hok.mpr hfit), CircularBuffer.contents_new, List.take_length] at hcontents
  exact hcontents

/-- A move result, and the beginning of the next packet. -/
theorem processPacket_advances_move :
    Advances (processPacketBody true) (fun client => client.mRecvBuffer.getStoredSize)
      (received (fun _ => 0) ((OutPacket.moveBroadcastResult ⟨7, 1, 2⟩).toBytes ++ [16, 0])) := by
  apply (processPacket_advances_iff _ (reachable_received _ _)).mpr
  rw [contents_received _ (by decide)]
  intro h
  cases h with
  | unknown _ ht => exact absurd ht (by decide)
  | short _ ht hs =>
      cases ht
      exact absurd hs (by decide)
  | next _ ht _ hn =>
      cases ht
      exact absurd hn.arrived.header (by decide)

/-- Four bytes of a type that has no struct keep the client busy for ever. -/
theorem processPacket_hangs :
    ∃ client : TcpClient, CircularBuffer.Reachable BUF_SIZE client.mRecvBuffer ∧
      ¬ Terminates (processPacketBody true) client := by
  have hcontents : (received (fun _ => 0) [4, 0, 99, 0]).mRecvBuffer.contents = [4, 0, 99, 0] :=
    contents_received _ (by decide)
  refine ⟨received (fun _ => 0) [4, 0, 99, 0], reachable_received _ _, ?_⟩
  apply not_terminates_of_invariant (fun client => client.mRecvBuffer.contents = [4, 0, 99, 0])
  · intro client hbytes
    have ha : Arrived client.mRecvBuffer.contents := by
      rw [hbytes]
      exact ⟨by decide, by decide⟩
    have ht : structSize (PacketHeader.ofBytes client.mRecvBuffer.contents).mType = none := by
      rw [hbytes]
      decide
    exact ⟨client, processPacketBody_of_unknown ha ht, hbytes⟩
  · exact hcontents

end TcpClient
end EasyGameServer
