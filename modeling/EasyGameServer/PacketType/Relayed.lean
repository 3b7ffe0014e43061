/-
  EasyGameServer.PacketType.Relayed

  What the packets of the server say.  A login result is for one session, while
  chats and moves are relayed to all; where a player is, is where the last of
  its moves led.
-/

import EasyGameServer.PacketType.Received

namespace EasyGameServer
namespace OutPacket

/-- Is it a chat or a move? -/
def isRelayed : OutPacket → Bool
  | .loginResult _ => false
  | .chatBroadcastResult _ => true
  | .moveBroadcastResult _ => true

theorem isRelayed_of_ne {pkt : OutPacket} (h : ∀ p, pkt ≠ .loginResult p) :
    pkt.isRelayed = true := by
  cases pkt with
  | loginResult p => exact absurd rfl (h p)
  | chatBroadcastResult p => rfl
  | moveBroadcastResult p => rfl

/-- Whom a login result is for. -/
def login : OutPacket → Option Int32
  | .loginResult q => some q.mPlayerId
  | _ => none

/-- A chat, with its sender's name. -/
def chat : OutPacket → Option (List UInt8 × List UInt8)
  | .chatBroadcastResult q => some (q.mName.text, q.mChat.text)
  | _ => none

/-- Where a player moves. -/
def move (id : Int32) : OutPacket → Option (CFloat × CFloat)
  | .moveBroadcastResult q => if q.mPlayerId = id then some (q.mPosX, q.mPosY) else none
  | _ => none

/-- Where the player's last move led. -/
def lastMove (id : Int32) (packets : List OutPacket) : Option (CFloat × CFloat) :=
  (packets.filterMap (move id)).getLast?

variable {id : Int32} {p : OutPacket} {packets packets' : List OutPacket}

theorem lastMove_concat_move {q : MoveBroadcastResult} (h : q.mPlayerId = id) :
    lastMove id (packets ++ [.moveBroadcastResult q]) = some (q.mPosX, q.mPosY) := by
  have hmove : move id (.moveBroadcastResult q) = some (q.mPosX, q.mPosY) := if_pos h
  simp [lastMove, List.filterMap_append, hmove]

theorem lastMove_concat_none (h : p.move id = none) :
    lastMove id (packets ++ [p]) = lastMove id packets := by
  simp [lastMove, List.filterMap_append, h]

theorem lastMove_concat_other {q : MoveBroadcastResult} (h : q.mPlayerId ≠ id) :
    lastMove id (packets ++ [.moveBroadcastResult q]) = lastMove id packets :=
  lastMove_concat_none (if_neg h)

/-- The last move of a suffix is the last move. -/
theorem lastMove_of_suffix (h : packets <:+ packets') {pos : CFloat × CFloat}
    (hlast : lastMove id packets = some pos) : lastMove id packets' = some pos := by
  obtain ⟨before, rfl⟩ := h
  rw [lastMove] at hlast
  rw [lastMove, List.filterMap_append, List.getLast?_append, hlast]
  rfl

/-- Chats and moves are relayed. -/
theorem filterMap_filter_isRelayed {β : Type} {f : OutPacket → Option β}
    (h : ∀ q, f (.loginResult q) = none) (packets : List OutPacket) :
    (packets.filter isRelayed).filterMap f = packets.filterMap f := by
  rw [List.filterMap_filter]
  congr 1
  funext p
  cases p with
  | loginResult q => exact (h q).symm
  | _ => rfl

theorem lastMove_filter_isRelayed (id : Int32) (packets : List OutPacket) :
    lastMove id (packets.filter isRelayed) = lastMove id packets := by
  rw [lastMove, filterMap_filter_isRelayed (fun _ => rfl), lastMove]

end OutPacket
end EasyGameServer
