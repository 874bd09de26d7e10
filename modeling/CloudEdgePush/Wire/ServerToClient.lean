import CloudEdgePush.Client.ReadCycle
import CloudEdgePush.Server.MessagePacket

/-!
# From the server to the client

A `packet_message` frame is a `RawFrame` of the client, so a stream of them is followed
through the client's read cycle by `run_receives`.  What is published differs from what was
sent exactly when a message with an empty body comes after one with a body: the client keeps
the old body then.
-/

namespace CloudEdgePush.Wire

open CloudEdgePush.Lib.LittleEndian CloudEdgePush.Lib.Transition CloudEdgePush.Client
open CloudEdgePush.Client.TcpClientImpl CloudEdgePush.Server CloudEdgePush.Server.MessagePacket

structure Notice where
  typ : Nat
  body : List UInt8
  typ_lt : typ < 2 ^ 31
  body_le : body.length ≤ 64 * 1024 * 1024 - 16

namespace Notice

def packet (syncBytes : Int) (m : Notice) : List UInt8 := packetMessage syncBytes m.typ m.body

def content (m : Notice) : UInt32 × List UInt8 := (UInt32.ofNat m.typ, m.body)

def header (m : Notice) : List UInt8 :=
  kProtoclHead ++ toLE 4 (m.body.length + 16) ++ toLE 4 m.typ ++ toLE 4 m.body.length

theorem msgType_header (m : Notice) : msgTypeOf m.header = UInt32.ofNat m.typ :=
  msgTypeOf_wireHeader (by have htyp := m.typ_lt; omega) _ _

def rawFrame (m : Notice) : RawFrame where
  header := m.header
  body := m.body
  header_length := length_wireHeader _ _ _
  head := take_wireHeader _ _ _
  fullMsgLen := fullMsgLenOf_wireHeader (by have hle := m.body_le; omega) _ _
  body_le := m.body_le

theorem packet_eq (m : Notice) : m.packet 0x01010101 = m.rawFrame.bytes := by
  have hle := m.body_le
  have htyp := m.typ_lt
  have hsync : toLE 4 0x01010101 = kProtoclHead := by decide
  have hpacket := packetMessage_eq 0x01010101 m.typ m.body (by decide) (by omega) (by omega)
  rw [hsync] at hpacket
  exact hpacket

end Notice

theorem recvRest_sync {sock : Sock} {given syncBytes typ : Int} {body : List UInt8}
    {binarydata : Option (List UInt8)}
    (h : (recvRest given sock).1 = .packet syncBytes typ body binarydata) : syncBytes = given := by
  unfold recvRest unpackRest at h
  split at h
  · cases h
  · split at h
    · cases h
    · split at h
      · cases h
      · split at h
        · cases h
        · split at h
          · cases h
          · split at h
            · exact (RecvResult.packet.inj h).1.symm
            · cases h

theorem recvPacket_sync {sock : Sock} {syncBytes typ : Int} {body : List UInt8}
    {binarydata : Option (List UInt8)} (hhead : sock.inbox.take 4 = kProtoclHead)
    (hrecv : (recvPacket sock).1 = .packet syncBytes typ body binarydata) :
    syncBytes = 0x01010101 := by
  have hfour : 4 ≤ sock.inbox.length := by
    have hlen : min 4 sock.inbox.length = 4 := by
      rw [← List.length_take, hhead]
      rfl
    omega
  have hreceive : sock.receive 4 = (some kProtoclHead, { sock with inbox := sock.inbox.drop 4 }) := by
    rw [Sock.receive, if_pos hfour, hhead]
  have hword : getByte4 kProtoclHead 1 = some 0x01010101 := by decide
  simp only [recvPacket, hreceive, hword] at hrecv
  exact recvRest_sync hrecv

/-- Server messages in any number, under the sync bytes of a frame of the client, arriving in
any pieces while the client waits for a header: the client publishes each with its own body
if and only if no message with an empty body comes after a body that is not empty, be it of
this stream or of one read before. -/
theorem publishes_own_bodies_iff {σ : Type} (bus : Bus σ) {c c' : TcpClientImpl σ}
    {es : List Event} {ms : List Notice} {sock : Sock} {syncBytes typ : Int} {body : List UInt8}
    {binarydata : Option (List UInt8)} (hc : AwaitsHeader c) (hempty : c.io.inbox = [])
    (hhead : sock.inbox.take 4 = kProtoclHead)
    (hrecv : (recvPacket sock).1 = .packet syncBytes typ body binarydata)
    (hreader : ∀ e ∈ es, e.isReader = true)
    (harrived : arrived es = ms.flatMap (Notice.packet syncBytes))
    (hcount : es.count (.readDone 0) = 2 * ms.length) (hrun : run (step bus) c es = some c') :
    c'.publishedBodies = c.publishedBodies ++ ms.map Notice.content ↔
      (c.readMsg.body :: ms.map Notice.body).Pairwise
        fun earlier later => later = [] → earlier = [] := by
  obtain rfl := recvPacket_sync hhead hrecv
  have hstream : c.io.inbox ++ arrived es = (ms.map Notice.rawFrame).flatMap RawFrame.bytes := by
    rw [hempty, harrived, List.nil_append, List.flatMap_map]
    congr 1
    funext m
    exact m.packet_eq
  have hexpecting := Expecting.header (ms.map Notice.rawFrame) hc hstream
  rw [List.length_map] at hexpecting
  have hpublished := run_receives bus hexpecting hreader hcount hrun
  have hcontent : (ms.map Notice.rawFrame).map RawFrame.content = ms.map Notice.content := by
    rw [List.map_map]
    congr 1
    funext m
    exact Prod.ext m.msgType_header rfl
  have hbodies : (ms.map Notice.rawFrame).map RawFrame.body = ms.map Notice.body := by
    rw [List.map_map]
    rfl
  rw [hpublished, List.append_cancel_left_eq, ← hcontent, publishedOf_eq_iff, hbodies]

/-! ## Two messages -/

def loginFrame : Sock :=
  ⟨kProtoclHead ++ [18, 0, 0, 0, 0xD1, 7, 0, 0, 2, 0, 0, 0, 0x7b, 0x7d], "closed"⟩

theorem heartRsp_typ_lt : 2012 < 2 ^ 31 := by decide

def heartRsp (body : List UInt8) (hbody : body.length ≤ 64 * 1024 * 1024 - 16) : Notice :=
  ⟨2012, body, heartRsp_typ_lt, hbody⟩

def twoMessages (first second : Notice) : List Event :=
  [.arrive ([first, second].flatMap (Notice.packet 0x01010101)), .readDone 0, .readDone 0,
    .readDone 0, .readDone 0]

theorem publishes_own_bodies_of_nonempty :
    ∃ c', run (step idleBus) sampleClient
        (twoMessages (heartRsp [0x7b, 0x7d] (by decide)) (heartRsp [0x30] (by decide))) = some c' ∧
      c'.publishedBodies = sampleClient.publishedBodies ++
        [heartRsp [0x7b, 0x7d] (by decide), heartRsp [0x30] (by decide)].map Notice.content := by
  have hsome : (run (step idleBus) sampleClient (twoMessages (heartRsp [0x7b, 0x7d] (by decide))
      (heartRsp [0x30] (by decide)))).isSome := by
    decide +kernel
  obtain ⟨c', hrun⟩ := Option.isSome_iff_exists.mp hsome
  refine ⟨c', hrun, ?_⟩
  have hrecv : (recvPacket loginFrame).1 = .packet 0x01010101 2001 [0x7b, 0x7d] none := by
    decide +kernel
  apply (publishes_own_bodies_iff idleBus ⟨rfl, rfl, rfl, rfl, rfl⟩ rfl rfl hrecv (by decide)
    (by decide +kernel) (by decide) hrun).mpr
  decide

/-- An empty body after a body `{}` is published as `{}` again. -/
theorem publishes_old_body_for_empty : ¬ ∀ (σ : Type) (bus : Bus σ) (c c' : TcpClientImpl σ)
    (es : List Event) (ms : List Notice), AwaitsHeader c → c.io.inbox = [] →
    (∀ e ∈ es, e.isReader = true) → arrived es = ms.flatMap (Notice.packet 0x01010101) →
    es.count (.readDone 0) = 2 * ms.length → run (step bus) c es = some c' →
    c'.publishedBodies = c.publishedBodies ++ ms.map Notice.content := by
  intro h
  let first := heartRsp [0x7b, 0x7d] (by decide)
  let second := heartRsp [] (by decide)
  have hbad : ∃ c' ∈ run (step idleBus) sampleClient (twoMessages first second),
      c'.publishedBodies ≠ sampleClient.publishedBodies ++ [first, second].map Notice.content := by
    decide +kernel
  obtain ⟨c', hrun, hne⟩ := hbad
  exact hne (h Unit idleBus sampleClient c' _ [first, second] ⟨rfl, rfl, rfl, rfl, rfl⟩ rfl
    (by decide) (by decide +kernel) (by decide) hrun)

end CloudEdgePush.Wire
