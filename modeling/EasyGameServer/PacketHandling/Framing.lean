/-
  EasyGameServer.PacketHandling.Framing

  The receive side of one session against a conforming client.  A client sends
  packets whose declared size is their struct's; TCP delivers their bytes in
  chunks, each into the window of an outstanding receive.  `Receiver` runs
  `RecvCompletion` on each chunk, one iteration of its loop at a time, and
  between two completions lets everything else in the world change in any way
  that leaves this session's receive side alone.

  The invariant carries the split of the stream: the packets read so far, then
  the bytes in the buffer.
-/

import EasyGameServer.PacketHandling.ReadLoop
import EasyGameServer.World.Profile
import EasyGameServer.Lib.Lts
import EasyGameServer.Lib.Frames

namespace EasyGameServer

open Lib

namespace World

/-! ## Packets on a stream -/

/-- A packet as a conforming client sends it. -/
def Conforming (p : List UInt8) : Prop :=
  ∃ r, registered? (PacketHeader.ofBytes p).mType = some r ∧ p.length = r.size ∧
    shortToSize (PacketHeader.ofBytes p).mSize = r.size

theorem registered?_range {t : Int16} {r : Registered} (h : registered? t = some r) :
    t < PacketTypes.pktMax.value ∧ PacketTypes.pktNone.value < t := by
  unfold registered? at h
  split at h
  next ht =>
    subst ht
    decide
  next =>
    split at h
    next ht =>
      subst ht
      decide
    next =>
      split at h
      next ht =>
        subst ht
        decide
      next => cases h

/-- A header that is all there is the packet's. -/
theorem ofBytes_of_prefix {bs p rest : List UInt8} (hpre : bs <+: p ++ rest)
    (hp : sizeofPacketHeader ≤ p.length) (hbs : sizeofPacketHeader ≤ bs.length) :
    PacketHeader.ofBytes bs = PacketHeader.ofBytes p := by
  obtain ⟨t, ht⟩ := hpre
  have htake : bs.take sizeofPacketHeader = p.take sizeofPacketHeader := by
    have h₁ : (bs ++ t).take sizeofPacketHeader = bs.take sizeofPacketHeader :=
      List.take_append_of_le_length hbs
    have h₂ : (p ++ rest).take sizeofPacketHeader = p.take sizeofPacketHeader :=
      List.take_append_of_le_length hp
    rw [← h₁, ht, h₂]
  rw [← PacketHeader.ofBytes_take bs (Nat.le_refl _), htake,
    PacketHeader.ofBytes_take p (Nat.le_refl _)]

/-- In front of a conforming packet, `OnRead` dispatches when the packet is all
    there. -/
theorem dispatched_of_conforming {bs p rest : List UInt8} (hp : Conforming p)
    (hpre : bs <+: p ++ rest) (hle : p.length ≤ bs.length) : Dispatched bs := by
  obtain ⟨r, hr, hlen, hsize⟩ := hp
  have hhead := r.sizeofPacketHeader_le_size
  have hof := ofBytes_of_prefix hpre (by omega) (by omega)
  have hrange := registered?_range hr
  rw [← hof] at hrange hsize
  exact ⟨by omega, by omega, hrange.1, hrange.2⟩

/-- A conforming packet at the front is handled, unless the process ends. -/
theorem onReadBody_front {w : World} {this : SessionId} {p rest : List UInt8} {r : Registered}
    (hv : (w.recv this).Valid) (hp : Conforming p)
    (hr : registered? (PacketHeader.ofBytes p).mType = some r)
    (hc : (w.recv this).contents = p ++ rest)
    (hcrash : ¬ r.Crashes (w.sessions this).mPlayerId p) :
    ∃ w' after, onReadBody this w = .again w' ∧ Handled w this r p after w' ∧ after.Valid ∧
      after.contents = rest := by
  have hpre : (w.recv this).contents <+: p ++ rest := ⟨[], (List.append_nil _).trans hc⟩
  have hle : p.length ≤ (w.recv this).contents.length := by
    rw [hc, List.length_append]
    omega
  have hd := dispatched_of_conforming hp hpre hle
  obtain ⟨r', hr', hlen, -⟩ := hp
  obtain rfl : r' = r := Option.some.inj (hr'.symm.trans hr)
  have hhead := r'.sizeofPacketHeader_le_size
  have hof := ofBytes_of_prefix hpre (by omega) hd.header
  have hsize : r'.size ≤ (w.recv this).getStoredSize := by
    rw [← CircularBuffer.length_contents, ← hlen]
    exact hle
  obtain ⟨after, hread, hv', hc', -⟩ := CircularBuffer.read_spec hv hsize
  have htake : (w.recv this).contents.take r'.size = p := by
    rw [hc, List.take_left' hlen]
  have hdrop : (w.recv this).contents.drop r'.size = rest := by
    rw [hc, List.drop_left' hlen]
  rw [htake] at hread
  rw [hdrop] at hc'
  rcases onReadBody_cases this w with ⟨hnd, -⟩ | ⟨-, hrun⟩
  · exact absurd hd hnd
  · simp only [hof, handlerTable, hr] at hrun
    rcases hrun with ⟨hnone, -⟩ | ⟨w', hrun, hbody⟩
    · -- the handler returns
      rcases handler_spec hv r' with ⟨hlt, -⟩ | ⟨-, hcrash', -⟩ | ⟨-, -, w₁, hsome, -⟩
      · omega
      · rw [htake] at hcrash'
        exact absurd hcrash' hcrash
      · cases hsome.symm.trans hnone
    · exact ⟨w', after, hbody, handled_of_read hread hrun, hv', hc'⟩

/-- And only then: what it dispatches on a conforming stream is the next packet,
    complete, and registered. -/
theorem conforming_of_dispatched {bs : List UInt8} {rest : List (List UInt8)}
    (hrest : ∀ p ∈ rest, Conforming p) (hpre : bs <+: rest.flatten) (hd : Dispatched bs) :
    ∃ p rest' r, rest = p :: rest' ∧
      registered? (PacketHeader.ofBytes bs).mType = some r ∧ r.size ≤ bs.length ∧
      bs.take r.size = p ∧ bs.drop r.size <+: rest'.flatten := by
  cases rest with
  | nil =>
      have hheader := hd.header
      rw [List.prefix_nil.mp hpre] at hheader
      exact absurd hheader (by decide)
  | cons p rest' =>
      obtain ⟨r, hr, hlen, hsize⟩ := hrest p List.mem_cons_self
      rw [List.flatten_cons] at hpre
      have hhead := r.sizeofPacketHeader_le_size
      have hof := ofBytes_of_prefix hpre (by omega) hd.header
      have harr := hd.arrived
      rw [hof, hsize] at harr
      obtain ⟨t, ht⟩ := hpre
      have htake := congrArg (List.take r.size) ht
      have hdrop := congrArg (List.drop r.size) ht
      rw [List.take_append_of_le_length harr, List.take_left' hlen] at htake
      rw [List.drop_append_of_le_length harr, List.drop_left' hlen] at hdrop
      exact ⟨p, rest', r, rfl, hof ▸ hr, harr, htake, ⟨t, hdrop⟩⟩

/-- What a conforming stream leaves in the buffer never gets stuck. -/
theorem not_stuck_of_conforming {pid : Int32} {bs : List UInt8} (hs : Stuck pid bs)
    {rest : List (List UInt8)} (hrest : ∀ p ∈ rest, Conforming p) (hpre : bs <+: rest.flatten) :
    False := by
  induction hs generalizing rest with
  | unregistered hd hr =>
      obtain ⟨p, rest', r, -, hr', -⟩ := conforming_of_dispatched hrest hpre hd
      rw [hr] at hr'
      cases hr'
  | short hd hr hs =>
      obtain ⟨p, rest', r', -, hr', hle, -⟩ := conforming_of_dispatched hrest hpre hd
      rw [hr] at hr'
      cases hr'
      omega
  | next hd hr hs hc hn ih =>
      obtain ⟨p, rest', r', rfl, hr', -, -, hdrop⟩ := conforming_of_dispatched hrest hpre hd
      rw [hr] at hr'
      cases hr'
      exact ih (fun q hq => hrest q (List.mem_cons_of_mem _ hq)) hdrop

/-! ## The receive side of one session -/

structure Receiver where
  world : World
  /-- Inside the loop of `OnRead`. -/
  reading : Bool
  /-- Every byte received so far. -/
  stream : List UInt8

namespace Receiver

inductive Event where
  | deliver (post : RecvPost) (chunk : List UInt8)
  | iterate
  | other (w : World)

/-- The receives outstanding for a session. -/
def posts (w : World) (this : SessionId) : List RecvPost :=
  w.os.recvs.filter (fun p => p.owner = this)

def step (this : SessionId) (st : Receiver) : Event → Option Receiver
  | .deliver post chunk =>
      if st.reading = false ∧ post ∈ posts st.world this ∧
          (st.world.sessions this).mConnected = true ∧ chunk ≠ [] ∧ chunk.length ≤ post.len then
        let r := st.world.recvCompletion post false chunk
        some ⟨r.2, r.1, st.stream ++ chunk⟩
      else none
  | .iterate =>
      if st.reading then
        match onReadBody this st.world with
        | .again w => some { st with world := w }
        | .leave (some w) => some { st with world := w.recvExit this, reading := false }
        | .leave none => none
      else none
  | .other w => if st.reading then none else some { st with world := w }

/-- Right after the client thread has taken the session's socket. -/
def Start (this : SessionId) (st : Receiver) : Prop :=
  ∃ w sock sendMem recvMem, w.next = this ∧ posts w this = [] ∧ w.parsedBy this = [] ∧
    st = ⟨w.acceptClient sock sendMem recvMem, false, []⟩

def system (this : SessionId) : System Receiver Event where
  init := Start this
  step := step this

/-- The bytes are those of the packets, and nothing else touches the receive
    side of the session. -/
def conforms (this : SessionId) (packets : List (List UInt8)) (st : Receiver) : Event → Prop
  | .deliver _ chunk => st.stream ++ chunk <+: packets.flatten
  | .iterate => True
  | .other w =>
      w.recv this = st.world.recv this ∧ posts w this = posts st.world this ∧
        w.parsedBy this = st.world.parsedBy this

/-! ## The invariant -/

/-- The outstanding receive, if there is one, is for the whole free window at
    the write position. -/
def Window (w : World) (this : SessionId) : Prop :=
  ∀ p ∈ posts w this, posts w this = [p] ∧ p.buf = (w.recv this).getBuffer ∧
    p.len = (w.recv this).room ∧ 0 < p.len

structure Inv (this : SessionId) (packets : List (List UInt8)) (st : Receiver) : Prop where
  valid : (st.world.recv this).Valid
  mBufferEnd : (st.world.recv this).mBufferEnd = BUFSIZE
  stream : st.stream <+: packets.flatten
  split : (st.world.parsedBy this).flatten ++ (st.world.recv this).contents = st.stream
  parsed : st.world.parsedBy this <+: packets
  window : st.reading = false → Window st.world this
  noPost : st.reading = true → posts st.world this = []
  less : st.reading = false → ∀ p rest, packets = st.world.parsedBy this ++ p :: rest →
    (st.world.recv this).contents.length < p.length

/-- The packets still to be read, and the front of them in the buffer. -/
theorem Inv.rest {this : SessionId} {packets : List (List UInt8)} {st : Receiver}
    (h : Inv this packets st) :
    ∃ rest, packets = st.world.parsedBy this ++ rest ∧
      (st.world.recv this).contents <+: rest.flatten := by
  obtain ⟨rest, hrest⟩ := h.parsed
  refine ⟨rest, hrest.symm, ?_⟩
  have hpre := h.stream
  rw [← h.split, ← hrest, List.flatten_append] at hpre
  exact (List.prefix_append_right_inj _).mp hpre

/-- A completion commits the chunk behind the bytes in the buffer. -/
theorem recvCompletion_spec {w : World} {this : SessionId} {post : RecvPost}
    {chunk : List UInt8} (hv : (w.recv this).Valid) (hwin : Window w this)
    (hpost : post ∈ posts w this) (hconn : (w.sessions this).mConnected = true)
    (hne : chunk ≠ []) (hle : chunk.length ≤ post.len) :
    ∃ w', w.recvCompletion post false chunk = (true, w') ∧ (w'.recv this).Valid ∧
      (w'.recv this).contents = (w.recv this).contents ++ chunk ∧
      (w'.recv this).mBufferEnd = (w.recv this).mBufferEnd ∧
      w'.parsedBy this = w.parsedBy this ∧ posts w' this = [] := by
  obtain ⟨honly, hbuf, hlen, -⟩ := hwin post hpost
  obtain ⟨hmem, howner⟩ := List.mem_filter.mp hpost
  have howner' : post.owner = this := of_decide_eq_true howner
  subst howner'
  obtain ⟨hv', hc', he'⟩ := CircularBuffer.store_commit_spec hv chunk (by omega)
  rw [CircularBuffer.store, ← hbuf] at hv' hc' he'
  rcases recvCompletion_cases w post false chunk with ⟨hdisc, -⟩ | ⟨-, herr, -⟩ | ⟨-, -, heq⟩
  · exact absurd (hconn.symm.trans hdisc) (by decide)
  · rcases herr with herr | herr
    · cases herr
    · exact absurd herr hne
  · refine ⟨_, heq, ?_, ?_, ?_, rfl, ?_⟩
    · rw [recv, sessions_put_self]
      exact hv'
    · rw [recv, sessions_put_self]
      exact hc'
    · rw [recv, sessions_put_self]
      exact he'
    · show (w.os.recvs.erase post).filter (fun p => p.owner = post.owner) = []
      rw [← List.erase_filter]
      have herase := congrArg (fun l => l.erase post) honly
      rw [List.erase_cons_head] at herase
      exact herase

/-- Posting the next receive keeps the bytes; less than half full, the window
    is not empty. -/
theorem recvExit_spec {w : World} {this : SessionId} (hv : (w.recv this).Valid)
    (hposts : posts w this = [])
    (hroom : 2 * (w.recv this).contents.length < (w.recv this).mBufferEnd) :
    ((w.recvExit this).recv this).Valid ∧
      ((w.recvExit this).recv this).contents = (w.recv this).contents ∧
      ((w.recvExit this).recv this).mBufferEnd = (w.recv this).mBufferEnd ∧
      (w.recvExit this).parsedBy this = w.parsedBy this ∧
      Window (w.recvExit this) this := by
  obtain ⟨hv', hc', he', hfree⟩ := CircularBuffer.getFreeSpaceSize_spec hv
  have hhalf := CircularBuffer.half_capacity hv
  rw [CircularBuffer.length_contents] at hroom
  have hnone : ∀ w' : World, w'.os.recvs = w.os.recvs → Window w' this := by
    intro w' hrecvs p hp
    rw [posts, hrecvs] at hp
    rw [posts] at hposts
    rw [hposts] at hp
    exact absurd hp List.not_mem_nil
  rcases recvExit_cases w this with ⟨-, hcalm⟩ | ⟨-, k, heq⟩ | ⟨-, k, hcalm⟩
  · have hrecv := (hcalm.sessions this).mRecvBuffer
    refine ⟨?_, ?_, ?_, hcalm.parsedBy this, hnone _ hcalm.recvs⟩
    · rw [recv, hrecv]
      exact hv
    · rw [recv, hrecv]
    · rw [recv, hrecv]
  · -- the receive is posted: it is the only one, for the window just chosen
    have hself := sessions_put_self w this
    rw [heq]
    refine ⟨?_, ?_, ?_, rfl, ?_⟩
    · rw [recv, hself]
      exact hv'
    · rw [recv, hself]
      exact hc'
    · rw [recv, hself]
      exact he'
    · have honly : ∀ r : ClientSession × Os, r.2.recvs = w.os.recvs ++ [⟨this,
          (w.recv this).getFreeSpaceSize.2.getBuffer, (w.recv this).getFreeSpaceSize.1⟩] →
          posts (w.put this r) this = [⟨this,
            (w.recv this).getFreeSpaceSize.2.getBuffer, (w.recv this).getFreeSpaceSize.1⟩] := by
        intro r hr
        show r.2.recvs.filter (fun p => p.owner = this) = _
        rw [posts] at hposts
        rw [hr, List.filter_append, hposts]
        simp
      intro p hp
      rw [honly _ rfl, List.mem_singleton] at hp
      rw [recv, hself, honly _ rfl, hp]
      refine ⟨rfl, rfl, hfree, ?_⟩
      show 0 < (w.recv this).getFreeSpaceSize.1
      omega
  · have hrecv := (hcalm.sessions this).mRecvBuffer
    rw [sessions_put_self] at hrecv
    refine ⟨?_, ?_, ?_, hcalm.parsedBy this, hnone _ hcalm.recvs⟩
    · rw [recv, hrecv]
      exact hv'
    · rw [recv, hrecv]
      exact hc'
    · rw [recv, hrecv]
      exact he'

theorem inv_start {this : SessionId} {packets : List (List UInt8)} {st : Receiver}
    (hpk : ∀ p ∈ packets, Conforming p) (h : Start this st) : Inv this packets st := by
  obtain ⟨w, sock, sendMem, recvMem, rfl, hposts, hparsed, rfl⟩ := h
  have hrecv : (w.connectClient sock sendMem recvMem).recv w.next = .new BUFSIZE recvMem := by
    rw [recv, connectClient, sessions_modify_self, createClient]
    simp only [if_true]
    rfl
  have hposts' : posts (w.connectClient sock sendMem recvMem) w.next = [] := hposts
  obtain ⟨hv, hc, he, hp, hwin⟩ := recvExit_spec
    (hrecv ▸ CircularBuffer.valid_new BUFSIZE recvMem) hposts'
    (by rw [hrecv]; show 2 * 0 < BUFSIZE; decide)
  rw [hrecv] at hc he
  rw [← acceptClient_eq] at hv hc he hp hwin
  have hp' : (w.acceptClient sock sendMem recvMem).parsedBy w.next = [] := hp.trans hparsed
  refine ⟨hv, he, List.nil_prefix, ?_, ?_, fun _ => hwin, ?_, ?_⟩
  · rw [hp', hc]
    rfl
  · rw [hp']
    exact List.nil_prefix
  · intro hf
    cases hf
  · intro _ p rest hpackets
    obtain ⟨r, -, hlen, -⟩ := hpk p (by rw [hpackets]; simp)
    have hpos := r.size_pos
    rw [hc]
    show 0 < p.length
    omega

namespace Inv

variable {this : SessionId} {packets : List (List UInt8)} {st : Receiver}

/-- A packet that is all there is dispatched. -/
theorem lt_of_not_dispatched (hpk : ∀ p ∈ packets, Conforming p) (h : Inv this packets st)
    (hnd : ¬ Dispatched (st.world.recv this).contents) (p : List UInt8)
    (rest : List (List UInt8)) (hp : packets = st.world.parsedBy this ++ p :: rest) :
    (st.world.recv this).contents.length < p.length := by
  obtain ⟨rest', hpackets, hpre⟩ := h.rest
  have hsame : rest' = p :: rest := List.append_cancel_left (hpackets.symm.trans hp)
  have hmem : p ∈ packets := by
    rw [hp]
    exact List.mem_append_right _ List.mem_cons_self
  rw [hsame, List.flatten_cons] at hpre
  by_contra hge
  exact hnd (dispatched_of_conforming (hpk p hmem) hpre (Nat.le_of_not_lt hge))

/-- What is left of a packet fills no half of the buffer. -/
theorem room (hpk : ∀ p ∈ packets, Conforming p) (h : Inv this packets st)
    (hless : ∀ p rest, packets = st.world.parsedBy this ++ p :: rest →
      (st.world.recv this).contents.length < p.length) :
    2 * (st.world.recv this).contents.length < (st.world.recv this).mBufferEnd := by
  rw [h.mBufferEnd]
  obtain ⟨rest, hpackets, hpre⟩ := h.rest
  cases rest with
  | nil =>
      rw [List.prefix_nil.mp hpre]
      decide
  | cons p rest =>
      have hlt := hless p rest hpackets
      have hmem : p ∈ packets := by
        rw [hpackets]
        exact List.mem_append_right _ List.mem_cons_self
      obtain ⟨r, -, hlen, -⟩ := hpk p hmem
      have hle : r.size ≤ 264 := r.size_le
      have hbuf : BUFSIZE = 10240 := rfl
      omega

/-- The loop is left, and the next receive is posted behind what is buffered. -/
theorem leave (hpk : ∀ p ∈ packets, Conforming p) (h : Inv this packets st)
    (hin : st.reading = true) (hnd : ¬ Dispatched (st.world.recv this).contents) {w : World}
    (hcalm : st.world.Calm w) :
    Inv this packets { st with world := w.recvExit this, reading := false } := by
  have hrecv : w.recv this = st.world.recv this := (hcalm.sessions this).mRecvBuffer
  have hless := h.lt_of_not_dispatched hpk hnd
  have hposts : posts w this = [] := by
    rw [posts, hcalm.recvs]
    exact h.noPost hin
  obtain ⟨hv', hc', he', hp', hwin⟩ := recvExit_spec (hrecv ▸ h.valid) hposts
    (hrecv ▸ h.room hpk hless)
  rw [hrecv] at hc' he'
  rw [hcalm.parsedBy] at hp'
  refine ⟨hv', he'.trans h.mBufferEnd, h.stream, ?_, ?_, fun _ => hwin, ?_, ?_⟩
  · rw [hp', hc']
    exact h.split
  · rw [hp']
    exact h.parsed
  · intro hf
    cases hf
  · intro _ p rest hp
    rw [hc']
    exact hless p rest (hp'.symm ▸ hp)

/-- The handler takes the next packet. -/
theorem took (hpk : ∀ p ∈ packets, Conforming p) (h : Inv this packets st)
    (hin : st.reading = true) (hd : Dispatched (st.world.recv this).contents) {r : Registered}
    (hr : registered? (PacketHeader.ofBytes (st.world.recv this).contents).mType = some r)
    {w : World} (htook : Took st.world this r w) : Inv this packets { st with world := w } := by
  obtain ⟨rest, hpackets, hpre⟩ := h.rest
  have hrest : ∀ p ∈ rest, Conforming p := fun p hp =>
    hpk p (hpackets ▸ List.mem_append_right _ hp)
  obtain ⟨p, rest', r', rfl, hr', -, htake, -⟩ := conforming_of_dispatched hrest hpre hd
  rw [hr] at hr'
  cases hr'
  have hparsed := htook.parsedBy
  rw [htake] at hparsed
  refine ⟨htook.valid, htook.mBufferEnd.trans h.mBufferEnd, h.stream, ?_, ?_, ?_, ?_, ?_⟩
  · rw [hparsed, List.flatten_append, List.flatten_singleton, htook.contents, List.append_assoc,
      ← htake, List.take_append_drop]
    exact h.split
  · rw [hparsed, hpackets]
    exact ⟨rest', by rw [List.append_assoc, List.singleton_append]⟩
  · intro hf
    cases hin.symm.trans hf
  · intro _
    rw [posts, htook.recvs]
    exact h.noPost hin
  · intro hf
    cases hin.symm.trans hf

end Inv

theorem Inv.iterate {this : SessionId} {packets : List (List UInt8)} {st st' : Receiver}
    (hpk : ∀ p ∈ packets, Conforming p) (h : Inv this packets st)
    (hin : st.reading = true) (hstep : step this st .iterate = some st') :
    Inv this packets st' := by
  simp only [step, hin, if_true] at hstep
  rcases onReadBody_spec h.valid with ⟨hnd, hleave⟩ | ⟨hleave, -⟩ | ⟨w', -, -, -, hstuck⟩
      | ⟨w', r, hagain, hd, hr, hsize, -, htook⟩
  · -- the next packet is not all there
    obtain ⟨w, hw, hcalm⟩ : ∃ w, onReadBody this st.world = .leave (some w) ∧
        st.world.Calm w := by
      rcases hleave with hleave | hleave
      · exact ⟨_, hleave, .refl _⟩
      · exact ⟨_, hleave, calm_disconnect _ this⟩
    rw [hw] at hstep
    cases hstep
    exact h.leave hpk hin hnd hcalm
  · rw [hleave] at hstep
    cases hstep
  · obtain ⟨rest, hpackets, hpre⟩ := h.rest
    exact (not_stuck_of_conforming hstuck
      (fun p hp => hpk p (hpackets ▸ List.mem_append_right _ hp)) hpre).elim
  · rw [hagain] at hstep
    cases hstep
    simpa only [hin] using h.took hpk hin hd hr htook

/-- A chunk goes behind the bytes in the buffer. -/
theorem Inv.deliver {this : SessionId} {packets : List (List UInt8)} {st st' : Receiver}
    {post : RecvPost} {chunk : List UInt8} (h : Inv this packets st)
    (hstream : st.stream ++ chunk <+: packets.flatten)
    (hstep : step this st (.deliver post chunk) = some st') : Inv this packets st' := by
  simp only [step] at hstep
  split at hstep
  next hcond =>
    obtain ⟨hout, hpost, hconn, hne, hle⟩ := hcond
    obtain ⟨w', heq, hv', hc', he', hp', hposts⟩ :=
      recvCompletion_spec h.valid (h.window hout) hpost hconn hne hle
    rw [heq] at hstep
    cases hstep
    refine ⟨hv', he'.trans h.mBufferEnd, hstream, ?_, ?_, ?_, fun _ => hposts, ?_⟩
    · rw [hp', hc', ← List.append_assoc, h.split]
    · rw [hp']
      exact h.parsed
    · intro hf
      cases hf
    · intro hf
      cases hf
  next => cases hstep

theorem Inv.other {this : SessionId} {packets : List (List UInt8)} {st st' : Receiver}
    {w : World} (h : Inv this packets st) (hok : conforms this packets st (.other w))
    (hstep : step this st (.other w) = some st') : Inv this packets st' := by
  obtain ⟨hrecv, hposts, hparsed⟩ := hok
  cases hr : st.reading with
  | true =>
      simp only [step, hr, if_true] at hstep
      cases hstep
  | false =>
      simp only [step, hr] at hstep
      cases hstep
      refine ⟨?_, ?_, h.stream, ?_, ?_, ?_, ?_, ?_⟩
      · rw [hrecv]
        exact h.valid
      · rw [hrecv]
        exact h.mBufferEnd
      · rw [hparsed, hrecv]
        exact h.split
      · rw [hparsed]
        exact h.parsed
      · intro _ p hp
        rw [hposts] at hp ⊢
        rw [hrecv]
        exact h.window hr p hp
      · intro hf
        cases hf
      · rw [hparsed, hrecv]
        exact fun _ => h.less hr

theorem isInvariant_inv (this : SessionId) {packets : List (List UInt8)}
    (hpk : ∀ p ∈ packets, Conforming p) :
    (system this).IsInvariant (conforms this packets) (Inv this packets) where
  init _ h := inv_start hpk h
  step st a st' _ h hok hstep := by
    cases a with
    | deliver post chunk => exact h.deliver hok hstep
    | iterate =>
        cases hr : st.reading with
        | true => exact h.iterate hpk hr hstep
        | false =>
            simp only [system, step, hr] at hstep
            cases hstep
    | other w => exact h.other hok hstep

/-! ## The whole run -/

/-- The packets read are those the stream completes. -/
theorem Inv.parsedBy_eq {this : SessionId} {packets : List (List UInt8)} {st : Receiver}
    (h : Inv this packets st) (hin : st.reading = false) :
    st.world.parsedBy this = complete packets st.stream.length := by
  obtain ⟨rest, hpackets, hpre⟩ := h.rest
  have hlen := congrArg List.length h.split
  rw [List.length_append] at hlen
  have hless := h.less hin
  generalize st.world.parsedBy this = parsed at *
  subst hpackets
  rw [← hlen, complete_append]
  cases rest with
  | nil => rw [complete, List.append_nil]
  | cons p rest' => rw [complete_cons_of_lt (hless p rest' rfl), List.append_nil]

/-- The loop of `OnRead` comes to its end with the process running, unless one
    of the packets ends the process. -/
theorem Inv.returns {this : SessionId} {packets : List (List UInt8)} {st : Receiver}
    (hpk : ∀ p ∈ packets, Conforming p) (h : Inv this packets st) {n : Nat} {r : Option World}
    (hloop : loop (onReadBody this) n st.world = some r)
    (hc : ∀ p ∈ packets, ¬ Registered.chat.Crashes (st.world.sessions this).mPlayerId p) :
    r ≠ none := by
  -- at every head of the loop the front of the remaining packets is buffered
  refine loop_result
    (fun w => (w.recv this).Valid ∧
      (w.sessions this).mPlayerId = (st.world.sessions this).mPlayerId ∧
      ∃ rest : List (List UInt8), (∀ p ∈ rest, p ∈ packets) ∧
        (w.recv this).contents <+: rest.flatten)
    (fun r => r ≠ none) ?_ ?_ ?_ hloop
  · rintro w w' ⟨hv, hpid, rest, hsub, hpre⟩ hb
    rcases onReadBody_spec hv with ⟨-, hleave | hleave⟩ | ⟨hleave, -⟩ | ⟨w₁, -, -, -, hstuck⟩
        | ⟨w₁, r, hagain, hd, hr, -, -, htook⟩
    · exact nomatch hb.symm.trans hleave
    · exact nomatch hb.symm.trans hleave
    · exact nomatch hb.symm.trans hleave
    · exact (not_stuck_of_conforming hstuck (fun p hp => hpk p (hsub p hp)) hpre).elim
    · rw [hb] at hagain
      cases hagain
      obtain ⟨p, rest', r', rfl, hr', -, -, hdrop⟩ :=
        conforming_of_dispatched (fun p hp => hpk p (hsub p hp)) hpre hd
      rw [hr] at hr'
      cases hr'
      refine ⟨htook.valid, htook.mPlayerId.trans hpid, rest',
        fun q hq => hsub q (List.mem_cons_of_mem _ hq), ?_⟩
      rw [htook.contents]
      exact hdrop
  · rintro w r ⟨hv, hpid, rest, hsub, hpre⟩ hb
    rcases onReadBody_spec hv with ⟨-, hleave | hleave⟩ | ⟨hleave, hd, r', hr, -, hcrash⟩
        | ⟨w₁, hagain, -⟩ | ⟨w₁, r', hagain, -⟩
    · cases hb.symm.trans hleave
      exact Option.some_ne_none _
    · cases hb.symm.trans hleave
      exact Option.some_ne_none _
    · obtain ⟨p, rest', r'', rfl, hr', -, htake, -⟩ :=
        conforming_of_dispatched (fun p hp => hpk p (hsub p hp)) hpre hd
      rw [hr] at hr'
      cases hr'
      obtain rfl := hcrash.1
      rw [htake, hpid] at hcrash
      exact absurd hcrash (hc p (hsub p List.mem_cons_self))
    · exact nomatch hb.symm.trans hagain
    · exact nomatch hb.symm.trans hagain
  · obtain ⟨rest, hpackets, hpre⟩ := h.rest
    exact ⟨h.valid, rfl, rest, fun p hp => hpackets ▸ List.mem_append_right _ hp, hpre⟩

/-- **Framing.**  In every run against a conforming client, every `OnRead`
    returns (the process ends in it only through a chat text without a
    terminator); after it the packets read are exactly those the received
    bytes complete, the rest of the bytes is in the buffer and shorter than
    the next packet; and every receive is posted for at least one byte. -/
theorem reads_completed_packets (this : SessionId) (packets : List (List UInt8))
    (hpk : ∀ p ∈ packets, Conforming p) (st : Receiver)
    (h : (system this).ReachableBy (conforms this packets) st) :
    (st.reading = true → ∃ n r, loop (onReadBody this) n st.world = some r ∧
        ((∀ p ∈ packets, ¬ Registered.chat.Crashes (st.world.sessions this).mPlayerId p) →
          r ≠ none)) ∧
      (st.reading = false →
        st.world.parsedBy this = complete packets st.stream.length ∧
          (st.world.parsedBy this).flatten ++ (st.world.recv this).contents = st.stream ∧
          ∀ p rest, packets = st.world.parsedBy this ++ p :: rest →
            (st.world.recv this).contents.length < p.length) ∧
      ∀ post ∈ posts st.world this, 0 < post.len := by
  have hinv := (isInvariant_inv this hpk).holds h
  refine ⟨fun _ => ?_, fun hin => ⟨hinv.parsedBy_eq hin, hinv.split, hinv.less hin⟩, ?_⟩
  · obtain ⟨rest, hpackets, hpre⟩ := hinv.rest
    have hrest : ∀ p ∈ rest, Conforming p := fun p hp =>
      hpk p (hpackets ▸ List.mem_append_right _ hp)
    obtain ⟨n, r, hloop⟩ := ((progresses_iff hinv.valid).mpr
      (fun hs => not_stuck_of_conforming hs hrest hpre)).1
    exact ⟨n, r, hloop, hinv.returns hpk hloop⟩
  · intro post hpost
    cases hr : st.reading with
    | true =>
        rw [hinv.noPost hr] at hpost
        exact absurd hpost List.not_mem_nil
    | false => exact (hinv.window hr post hpost).2.2.2

/-- A login request in two chunks. -/
theorem reads_completed_packets_login :
    ∃ st, (system 0).ReachableBy (conforms 0 [[8, 0, 1, 0, 7, 0, 0, 0]]) st ∧
      st.world.parsedBy 0 = [[8, 0, 1, 0, 7, 0, 0, 0]] := by
  have h₀ : (system 0).ReachableBy (conforms 0 [[8, 0, 1, 0, 7, 0, 0, 0]])
      ⟨(new 0 (fun _ => true)).acceptClient 5 (fun _ => 0) (fun _ => 0), false, []⟩ :=
    .init ⟨_, _, _, _, rfl, rfl, rfl, rfl⟩
  have h₁ := h₀.step (a := Event.deliver ⟨0, 0, BUFSIZE⟩ [8, 0, 1, 0, 7]) ⟨[0, 0, 0], rfl⟩ rfl
  have h₂ := h₁.step (a := Event.iterate) trivial rfl
  have h₃ := h₂.step (a := Event.deliver ⟨0, 5, BUFSIZE - 5⟩ [0, 0, 0]) ⟨[], rfl⟩ rfl
  have h₄ := h₃.step (a := Event.iterate) trivial rfl
  have h₅ := h₄.step (a := Event.iterate) trivial rfl
  have hpk : ∀ p ∈ [([8, 0, 1, 0, 7, 0, 0, 0] : List UInt8)], Conforming p := by
    intro p hp
    rw [List.mem_singleton.mp hp]
    exact ⟨.login, by decide, by decide, by decide⟩
  have hread := reads_completed_packets 0 _ hpk _ h₅
  exact ⟨_, h₅, (hread.2.1 rfl).1⟩

end Receiver
end World
end EasyGameServer
