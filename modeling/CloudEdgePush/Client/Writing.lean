import CloudEdgePush.Lib.Transition
import CloudEdgePush.Client.TcpClientImpl

/-!
# The writing side of `TcpClientImpl`

`write` fills in the header of a message and `doWrite` lays it out in `_wbuf`; `frame` is
both together, and `frame_eq` its bytes.  `transmit` is the way of a list of messages
through `write`, the posted `startWrite` and the completion of the `async_write`:
what is handed to asio are the frames, in order (`transmit_writtenData`).
-/

namespace CloudEdgePush.Client

open CloudEdgePush.Lib.Bytes CloudEdgePush.Lib.LittleEndian CloudEdgePush.Lib.Transition

def Trace.writeData : Trace → Option Bytes
  | .writeIssued _ data => some data
  | _ => none

namespace TcpClientImpl

variable {σ : Type}

/-! ## Layout of a frame -/

theorem writeBuffer_eq {msg : TcpMessage} (hhead : msg.protoclHead.length = 4)
    (hlen : msg.fullMsgLen.toNat = 16 + msg.body.length) :
    writeBuffer msg = msg.protoclHead ++ wordBytes msg.fullMsgLen ++ wordBytes msg.msgType ++
      wordBytes msg.bodyLen ++ msg.body := by
  have happend {b : BytesBuffer} {content : Bytes} (data : Bytes)
      (h : b.Wf ∧ b.readerIndex = 0 ∧ b.readable = content) :
      (b.append data).Wf ∧ (b.append data).readerIndex = 0 ∧
        (b.append data).readable = content ++ data := by
    obtain ⟨hwf, hzero, hread⟩ := h
    refine ⟨BytesBuffer.append_wf hwf data, BytesBuffer.readerIndex_append hzero data, ?_⟩
    rw [BytesBuffer.readable_append hwf, hread]
  have hempty : BytesBuffer.empty.Wf ∧ BytesBuffer.empty.readerIndex = 0 ∧
      BytesBuffer.empty.readable = [] := ⟨BytesBuffer.wf_empty, rfl, rfl⟩
  obtain ⟨-, hzero, hread⟩ := happend msg.body (happend (wordBytes msg.bodyLen)
    (happend (wordBytes msg.msgType) (happend (wordBytes msg.fullMsgLen)
      (happend msg.protoclHead hempty))))
  rw [List.nil_append] at hread
  simp only [writeBuffer]
  rw [BytesBuffer.take_readableBytes hzero, hread]
  apply overwrite_all
  simp only [List.length_append, length_wordBytes, length_resize, hhead, hlen]

/-- The bytes that `write` and `doWrite` make of a message. -/
def frame (msg : TcpMessage) : Bytes := writeBuffer (fillHead msg)

theorem frame_eq {msg : TcpMessage} (hlen : msg.body.length + 16 < 2 ^ 32) :
    frame msg = kProtoclHead ++ toLE 4 (msg.body.length + 16) ++ wordBytes msg.msgType ++
      toLE 4 msg.body.length ++ msg.body := by
  have hbody : (UInt32.ofNat msg.body.length).toNat = msg.body.length := by
    rw [UInt32.toNat_ofNat']
    exact Nat.mod_eq_of_lt (by omega)
  have hfull : (fillHead msg).fullMsgLen.toNat = msg.body.length + 16 := by
    have hhead : kTotalHeadLen.toNat = 16 := rfl
    rw [fillHead, UInt32.toNat_add, hbody, hhead]
    omega
  have hwords : wordBytes (fillHead msg).fullMsgLen = toLE 4 (msg.body.length + 16) ∧
      wordBytes (fillHead msg).bodyLen = toLE 4 msg.body.length := by
    refine ⟨by rw [wordBytes, hfull], ?_⟩
    rw [wordBytes, fillHead, hbody]
  rw [frame, writeBuffer_eq rfl (by rw [hfull]; exact Nat.add_comm _ _), hwords.1, hwords.2]
  rfl

/-! ## The way to `async_write` -/

def writtenData (c : TcpClientImpl σ) : List Bytes := c.trace.filterMap Trace.writeData

structure IdleWriter (c : TcpClientImpl σ) : Prop where
  running : c.stopped = false
  writeMsgs : c.writeMsgs = []
  posted : c.io.posted = []
  writes : c.io.writes = []

/-- Each message is handed to `write` when the one before is written. -/
def transmit (bus : Bus σ) : TcpClientImpl σ → List TcpMessage → Option (TcpClientImpl σ)
  | c, [] => some c
  | c, m :: ms =>
      (run (step bus) (c.write m) [.runPosted, .writeDone 0]).bind fun c => transmit bus c ms

theorem run_write (bus : Bus σ) {c : TcpClientImpl σ} (hc : IdleWriter c) (m : TcpMessage) :
    run (step bus) (c.write m) [.runPosted, .writeDone 0] = some
      { c with
        wbuf := frame m
        trace := c.trace ++ [.handed c.io.connection m, .writeIssued c.io.connection (frame m)] } := by
  obtain ⟨hrunning, hwriteMsgs, hposted, hwrites⟩ := hc
  cases c with
  | mk clientConfig stopped closed reconnectFlag readMsg writeMsgs rsp lost rbuf wbuf io sub trace =>
      cases io
      dsimp only at hrunning hwriteMsgs hposted hwrites
      subst hrunning hwriteMsgs hposted hwrites
      simp [run, step, write, log, post, startWrite, doWrite, asyncWrite, handleWrite, frame]

theorem transmit_writtenData (bus : Bus σ) {c : TcpClientImpl σ} (hc : IdleWriter c)
    (ms : List TcpMessage) :
    ∃ c', transmit bus c ms = some c' ∧ IdleWriter c' ∧
      c'.writtenData = c.writtenData ++ ms.map frame := by
  induction ms generalizing c with
  | nil => exact ⟨c, rfl, hc, by simp⟩
  | cons m ms ih =>
      let c₁ : TcpClientImpl σ := { c with
        wbuf := frame m
        trace := c.trace ++ [.handed c.io.connection m, .writeIssued c.io.connection (frame m)] }
      have hidle : IdleWriter c₁ := ⟨hc.running, hc.writeMsgs, hc.posted, hc.writes⟩
      have hdata : c₁.writtenData = c.writtenData ++ [frame m] := by
        rw [writtenData, List.filterMap_append]
        rfl
      obtain ⟨c₂, htransmit, hidle₂, hdata₂⟩ := ih hidle
      refine ⟨c₂, ?_, hidle₂, ?_⟩
      · rw [transmit, run_write bus hc m]
        exact htransmit
      · rw [hdata₂, hdata, List.append_assoc]
        rfl

end TcpClientImpl

end CloudEdgePush.Client
