import CloudEdgePush.Lib.Framing
import CloudEdgePush.Client.Writing
import CloudEdgePush.Server.MessagePacket

/-!
# From the client to the server

The client lays out a frame with the memory of its integers, the server takes it apart with
`bit` operations.  One frame is read back exactly (`frame_readsBack`), hence every stream of
frames is.
-/

namespace CloudEdgePush.Wire

open CloudEdgePush.Lib.LittleEndian CloudEdgePush.Lib.Framing CloudEdgePush.Client
open CloudEdgePush.Client.TcpClientImpl CloudEdgePush.Server CloudEdgePush.Server.MessagePacket

structure Outgoing where
  msg : TcpMessage
  type_lt : msg.msgType.toNat < 2 ^ 31
  body_pos : 0 < msg.body.length
  body_le : msg.body.length ≤ 64 * 1024 * 1024 - 16

def Outgoing.bytes (m : Outgoing) : List UInt8 := frame m.msg

/-- What the server should receive: type and body of the message, under the client's sync
bytes and without binary data. -/
def Outgoing.received (m : Outgoing) : RecvResult :=
  .packet 0x01010101 m.msg.msgType.toNat m.msg.body none

theorem frame_readsBack (err : String) :
    ReadsBack Outgoing.bytes Outgoing.received (fun stream => Sock.mk stream err) recvPacket := by
  intro m rest
  have hle := m.body_le
  have htype : ofLE (wordBytes m.msg.msgType) = m.msg.msgType.toNat :=
    ofLE_toLE_of_lt m.msg.msgType.toNat_lt
  have hsync : ofLE kProtoclHead = 0x01010101 := by decide
  have hrecv := recvPacket_frame kProtoclHead (wordBytes m.msg.msgType) m.msg.body [] rfl
    (by rw [hsync]; decide) (length_wordBytes _) (by rw [htype]; exact m.type_lt) m.body_pos hle
    rest err
  rw [List.append_nil, List.length_nil, Nat.add_zero, htype, hsync] at hrecv
  dsimp only
  rw [Outgoing.bytes, frame_eq (by omega), hrecv]
  rfl

/-- Any stream of client frames is read back by `recv_packet` message by message; after each
call the stream is left at the first byte of the next frame. -/
theorem recvMany_frames (sent unsent : List Outgoing) (err : String) :
    recvMany recvPacket sent.length ⟨(sent ++ unsent).flatMap Outgoing.bytes, err⟩ =
      (sent.map Outgoing.received, ⟨unsent.flatMap Outgoing.bytes, err⟩) :=
  recvMany_append (frame_readsBack err) sent unsent

/-- Messages go through `write` and `doWrite` of a running session; what is handed to
`async_write` is, put together, read back by the server as the same messages.  After the
calls for `sent` the stream holds exactly the frames of `unsent`. -/
theorem recvPacket_transmit {σ : Type} (bus : Bus σ) {c : TcpClientImpl σ} (hc : IdleWriter c)
    (sent unsent : List Outgoing) (err : String) :
    ∃ c' produced, transmit bus c ((sent ++ unsent).map Outgoing.msg) = some c' ∧
      c'.writtenData = c.writtenData ++ produced ∧
      recvMany recvPacket sent.length ⟨produced.flatten, err⟩ =
        (sent.map Outgoing.received, ⟨unsent.flatMap Outgoing.bytes, err⟩) := by
  obtain ⟨c', htransmit, -, hdata⟩ :=
    transmit_writtenData bus hc ((sent ++ unsent).map Outgoing.msg)
  refine ⟨c', _, htransmit, hdata, ?_⟩
  have hflat : (((sent ++ unsent).map Outgoing.msg).map frame).flatten =
      (sent ++ unsent).flatMap Outgoing.bytes := by
    rw [List.map_map, List.flatMap_def]
    rfl
  rw [hflat]
  exact recvMany_frames sent unsent err

def sampleMessage : Outgoing :=
  ⟨{ msgType := kLoginReq, body := [0x7b, 0x7d] }, by decide, by decide, by decide⟩

theorem recvPacket_transmit_sample :
    ∃ c' produced, transmit idleBus sampleClient
        (([sampleMessage] ++ [sampleMessage]).map Outgoing.msg) = some c' ∧
      c'.writtenData = sampleClient.writtenData ++ produced ∧
      recvMany recvPacket [sampleMessage].length ⟨produced.flatten, "closed"⟩ =
        ([sampleMessage].map Outgoing.received,
          ⟨[sampleMessage].flatMap Outgoing.bytes, "closed"⟩) :=
  recvPacket_transmit idleBus ⟨rfl, rfl, rfl, rfl⟩ [sampleMessage] [sampleMessage] "closed"

end CloudEdgePush.Wire
