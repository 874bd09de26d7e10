import CloudEdgePush.Client.BinaryData
import CloudEdgePush.Server.MessagePacket

/-!
# Two decoders

The documented frame has a string body and binary data behind it.  `recv_packet` and the
pair `handleReadHeader`, `handleReadBody` are two decoders of it.  The server wants at least
one byte behind the header, the client takes everything behind the header for the body: they
agree with the format exactly on the frames without binary data that have a body.
-/

namespace CloudEdgePush.Wire

open CloudEdgePush.Lib.LittleEndian CloudEdgePush.Lib.Transition CloudEdgePush.Client
open CloudEdgePush.Client.TcpClientImpl CloudEdgePush.Server CloudEdgePush.Server.MessagePacket

structure WireFrame where
  typ : Nat
  body : List UInt8
  binary : List UInt8
  typ_lt : typ < 2 ^ 31
  fullLen_le : body.length + binary.length + 16 ≤ 64 * 1024 * 1024

namespace WireFrame

def fullLen (f : WireFrame) : Nat := f.body.length + f.binary.length + 16

def header (f : WireFrame) : List UInt8 := wireHeader f.fullLen f.typ f.body.length

def bytes (f : WireFrame) : List UInt8 := f.header ++ (f.body ++ f.binary)

def rawFrame (f : WireFrame) : RawFrame where
  header := f.header
  body := f.body ++ f.binary
  header_length := length_wireHeader _ _ _
  head := take_wireHeader _ _ _
  fullMsgLen := by
    have hle := f.fullLen_le
    rw [header, fullMsgLenOf_wireHeader (by rw [fullLen]; omega), List.length_append, fullLen]
  body_le := by
    have hle := f.fullLen_le
    rw [List.length_append]
    omega

theorem msgType_header (f : WireFrame) : msgTypeOf f.header = UInt32.ofNat f.typ :=
  msgTypeOf_wireHeader (by have htyp := f.typ_lt; omega) _ _

end WireFrame

/-! ## The server -/

/-- Type, body and binary data of the next packet; no binary data is empty binary data. -/
def serverDecodes (sock : Sock) : Option (Int × List UInt8 × List UInt8) :=
  match (recvPacket sock).1 with
  | .packet _ typ body binarydata => some (typ, body, binarydata.getD [])
  | _ => none

theorem serverDecodes_frame (f : WireFrame) (rest : List UInt8) (err : String)
    (hpos : 16 < f.fullLen) :
    serverDecodes ⟨f.bytes ++ rest, err⟩ = some ((f.typ : Int), f.body, f.binary) := by
  have hle := f.fullLen_le
  have htyp := f.typ_lt
  have htypLE : ofLE (toLE 4 f.typ) = f.typ := ofLE_toLE_four htyp
  rw [WireFrame.fullLen] at hpos
  have hrecv := recvPacket_frame kProtoclHead (toLE 4 f.typ) f.body f.binary rfl (by decide)
    (length_toLE _ _) (by rwa [htypLE]) (by omega) (by omega) rest err
  rw [htypLE] at hrecv
  rw [serverDecodes, WireFrame.bytes, WireFrame.header, wireHeader, WireFrame.fullLen, hrecv]
  by_cases hbinary : f.binary = []
  · simp [hbinary]
  · simp [hbinary]

theorem serverDecodes_empty (f : WireFrame) (rest : List UInt8) (err : String)
    (hempty : f.fullLen = 16) : serverDecodes ⟨f.bytes ++ rest, err⟩ = none := by
  have hrecv := recvPacket_empty kProtoclHead (toLE 4 f.typ) rfl (by decide)
    (toLE 4 f.body.length ++ (f.body ++ f.binary) ++ rest) err
  rw [serverDecodes, WireFrame.bytes, WireFrame.header, wireHeader, hempty]
  simp only [List.append_assoc] at hrecv ⊢
  rw [hrecv]

/-! ## The client -/

/-- The client takes a frame up: its two reads complete, the session goes on, and one message
is published. -/
def ClientDecodes {σ : Type} (bus : Bus σ) (c : TcpClientImpl σ)
    (content : UInt32 × List UInt8 × List UInt8) : Prop :=
  ∃ c', run (step bus) c [.readDone 0, .readDone 0] = some c' ∧ c'.stopped = false ∧
    c'.publishedContents = c.publishedContents ++ [content]

theorem run_frame {σ : Type} (bus : Bus σ) {c : TcpClientImpl σ} (hc : AwaitsHeader c)
    (hbinary : NoBinary c) (f : WireFrame) {rest : List UInt8}
    (hinbox : c.io.inbox = f.bytes ++ rest) :
    ∃ c', run (step bus) c [.readDone 0, .readDone 0] = some c' ∧ c'.stopped = false ∧
      c'.publishedContents = c.publishedContents ++
        [(UInt32.ofNat f.typ, bodyAfter c.readMsg.body f.rawFrame, [])] := by
  have hsplit : c.io.inbox = f.rawFrame.header ++ (f.rawFrame.body ++ rest) := by
    rw [hinbox, WireFrame.bytes, List.append_assoc]
    rfl
  obtain ⟨c₁, hstep₁, hbody, hinbox₁, hlast, hpublished₁⟩ :=
    readDone_header bus hc f.rawFrame hsplit
  obtain ⟨c₂, hstep₂, hnext, -, -, hpublished₂⟩ := readDone_body bus hbody hinbox₁
  have hbinary₁ := step_noBinary bus c _ c₁ hbinary hstep₁
  have hbinary₂ := step_noBinary bus c₁ _ c₂ hbinary₁ hstep₂
  have hrun : run (step bus) c [.readDone 0, .readDone 0] = some c₂ := by
    rw [run_cons, hstep₁, Option.bind_some, run_cons, hstep₂]
    rfl
  refine ⟨c₂, hrun, hnext.running, ?_⟩
  rw [hbinary₂.publishedContents_eq, hpublished₂, hpublished₁, List.map_append,
    ← hbinary.publishedContents_eq, hlast]
  have htype := f.msgType_header
  exact congrArg (fun typ => _ ++ [(typ, _, _)]) htype

theorem clientDecodes_iff {σ : Type} (bus : Bus σ) {c : TcpClientImpl σ} (hc : AwaitsHeader c)
    (hbinary : NoBinary c) (f : WireFrame) {rest : List UInt8}
    (hinbox : c.io.inbox = f.bytes ++ rest) :
    ClientDecodes bus c (UInt32.ofNat f.typ, f.body, f.binary) ↔
      bodyAfter c.readMsg.body f.rawFrame = f.body ∧ f.binary = [] := by
  obtain ⟨c', hrun, hrunning, hpublished⟩ := run_frame bus hc hbinary f hinbox
  constructor
  · rintro ⟨c'', hrun', -, hcontents⟩
    obtain rfl : c' = c'' := Option.some.inj (hrun.symm.trans hrun')
    rw [hpublished, List.append_cancel_left_eq, List.cons_eq_cons, Prod.mk.injEq,
      Prod.mk.injEq] at hcontents
    exact ⟨hcontents.1.2.1, hcontents.1.2.2.symm⟩
  · rintro ⟨hbody, hnone⟩
    refine ⟨c', hrun, hrunning, ?_⟩
    rw [hpublished, hbody, hnone]

/-! ## Both -/

/-- A client in any state it can reach, about to read a frame, and a server about to receive
the same frame: both take the type, the body and the binary data from it that the format
says, if and only if the frame has a body and no binary data. -/
theorem decoders_agree_iff {σ : Type} (bus : Bus σ) {cfg : ClientConfig} {sub : σ}
    {es : List Event} {c : TcpClientImpl σ}
    (hreach : run (step bus) (init cfg sub).start es = some c) (hc : AwaitsHeader c)
    (f : WireFrame) {rest : List UInt8} (hinbox : c.io.inbox = f.bytes ++ rest) (err : String) :
    serverDecodes ⟨f.bytes ++ rest, err⟩ = some ((f.typ : Int), f.body, f.binary) ∧
        ClientDecodes bus c (UInt32.ofNat f.typ, f.body, f.binary) ↔
      16 < f.fullLen ∧ f.binary = [] := by
  rw [clientDecodes_iff bus hc (run_noBinary bus hreach) f hinbox]
  constructor
  · rintro ⟨hserver, -, hbinary⟩
    refine ⟨?_, hbinary⟩
    by_contra hmin
    rw [serverDecodes_empty f rest err (by rw [WireFrame.fullLen] at hmin ⊢; omega)] at hserver
    cases hserver
  · rintro ⟨hpos, hbinary⟩
    refine ⟨serverDecodes_frame f rest err hpos, ?_, hbinary⟩
    have hraw : f.rawFrame.body = f.body := by
      show f.body ++ f.binary = f.body
      rw [hbinary, List.append_nil]
    have hne : f.rawFrame.body ≠ [] := by
      rw [hraw, ← List.length_pos_iff]
      rw [WireFrame.fullLen, hbinary, List.length_nil] at hpos
      omega
    rw [bodyAfter, if_neg hne, hraw]

def heartRspFrame (body binary : List UInt8)
    (hle : body.length + binary.length + 16 ≤ 64 * 1024 * 1024) : WireFrame :=
  ⟨2012, body, binary, by decide, hle⟩

def receiving (chunk : List UInt8) : List Event := [.connected true, .arrive chunk]

theorem run_receiving (chunk : List UInt8) :
    ∃ c, run (step idleBus) (init sampleConfig ()).start (receiving chunk) = some c ∧
      AwaitsHeader c ∧ c.io.inbox = chunk :=
  ⟨_, rfl, ⟨rfl, rfl, rfl, rfl, rfl⟩, rfl⟩

theorem decoders_agree_on_body :
    ∃ c, run (step idleBus) (init sampleConfig ()).start
        (receiving ((heartRspFrame [0x7b, 0x7d] [] (by decide)).bytes ++ [])) = some c ∧
      serverDecodes ⟨(heartRspFrame [0x7b, 0x7d] [] (by decide)).bytes ++ [], "closed"⟩ =
        some (((2012 : Nat) : Int), [0x7b, 0x7d], []) ∧
      ClientDecodes idleBus c (UInt32.ofNat 2012, [0x7b, 0x7d], []) := by
  obtain ⟨c, hrun, hc, hinbox⟩ :=
    run_receiving ((heartRspFrame [0x7b, 0x7d] [] (by decide)).bytes ++ [])
  refine ⟨c, hrun, ?_⟩
  exact (decoders_agree_iff idleBus hrun hc _ hinbox "closed").mpr ⟨by decide, rfl⟩

/-- The smallest frame is refused by the server. -/
theorem decoders_disagree : ¬ ∀ (σ : Type) (bus : Bus σ) (cfg : ClientConfig) (sub : σ)
    (es : List Event) (c : TcpClientImpl σ) (f : WireFrame) (rest : List UInt8) (err : String),
    run (step bus) (init cfg sub).start es = some c → AwaitsHeader c →
    c.io.inbox = f.bytes ++ rest →
    serverDecodes ⟨f.bytes ++ rest, err⟩ = some ((f.typ : Int), f.body, f.binary) ∧
      ClientDecodes bus c (UInt32.ofNat f.typ, f.body, f.binary) := by
  intro h
  let f := heartRspFrame [] [] (by decide)
  obtain ⟨c, hrun, hc, hinbox⟩ := run_receiving (f.bytes ++ [])
  have hboth := h Unit idleBus sampleConfig () _ c f [] "closed" hrun hc hinbox
  have hrefused := serverDecodes_empty f [] "closed" rfl
  rw [hrefused] at hboth
  cases hboth.1

end CloudEdgePush.Wire
