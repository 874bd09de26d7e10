import CloudEdgePush.Client.ReadCycle

/-!
# The binary part of a message

`TcpMessage_t` has a field for binary data.  The client never fills it: what it publishes
carries none, whatever the server sends.
-/

namespace CloudEdgePush.Client

open CloudEdgePush.Lib.Bytes CloudEdgePush.Lib.Transition

def Trace.publishedContent : Trace → Option (UInt32 × Bytes × Bytes)
  | .published _ (.kMsgReadBody msg) => some (msg.msgType, msg.body, msg.binaryData)
  | _ => none

def Trace.NoBinary : Trace → Prop
  | .published _ (.kMsgReadBody msg) => msg.binaryData = []
  | _ => True

namespace TcpClientImpl

variable {σ : Type}

def publishedContents (c : TcpClientImpl σ) : List (UInt32 × Bytes × Bytes) :=
  c.trace.filterMap Trace.publishedContent

/-- Neither the message that is being read nor one that was published has binary data. -/
structure NoBinary (c : TcpClientImpl σ) : Prop where
  readMsg : c.readMsg.binaryData = []
  published : ∀ t ∈ c.trace, t.NoBinary

namespace NoBinary

theorem log {c : TcpClientImpl σ} (hc : NoBinary c) {t : Trace} (ht : t.NoBinary) :
    NoBinary (c.log t) := by
  refine ⟨hc.readMsg, ?_⟩
  intro t' hmem
  rcases List.mem_append.mp hmem with hold | hnew
  · exact hc.published t' hold
  · obtain rfl := List.mem_singleton.mp hnew
    exact ht

theorem write {c : TcpClientImpl σ} (hc : NoBinary c) (msg : TcpMessage) :
    NoBinary (c.write msg) := by
  have hlog : NoBinary (c.log (.handed c.io.connection msg)) := hc.log trivial
  unfold TcpClientImpl.write
  dsimp only
  split
  · exact hlog
  · exact ⟨hlog.readMsg, hlog.published⟩

theorem sendMessage (bus : Bus σ) {c : TcpClientImpl σ} (hc : NoBinary c) (msg : BusMessage)
    (hmsg : (Trace.published c.io.connection msg).NoBinary) : NoBinary (c.sendMessage bus msg) := by
  have hsub : NoBinary { c with sub := (bus.deliver c.io.now msg c.sub).1 } :=
    ⟨hc.readMsg, hc.published⟩
  have hpublished := hsub.log (t := .published c.io.connection msg) hmsg
  exact List.foldlRecOn _ TcpClientImpl.write hpublished fun d hd m _ => NoBinary.write hd m

theorem frame (bus : Bus σ) : Frame bus fun c c' : TcpClientImpl σ => NoBinary c → NoBinary c' where
  refl _ := id
  trans h h' hc := h' (h hc)
  setIo _ _ _ _ hc := ⟨hc.readMsg, hc.published⟩
  setWriter _ _ _ hc := ⟨hc.readMsg, hc.published⟩
  setSession _ _ _ _ _ hc := ⟨hc.readMsg, hc.published⟩
  stop _ hc := ⟨hc.readMsg, hc.published⟩
  logConnect _ hc := hc.log trivial
  logWrite _ _ _ hc := hc.log trivial
  sendError _ hc := hc.sendMessage bus _ trivial
  sendHeartbeat _ hc := hc.sendMessage bus _ trivial
  sendClose _ hc :=
    have hsent := hc.sendMessage bus .kMsgClose trivial
    ⟨hsent.readMsg, hsent.published⟩

theorem asyncRead {c : TcpClientImpl σ} (hc : NoBinary c) (offset length : Nat)
    (handler : ReadHandler) : NoBinary (c.asyncRead offset length handler) := by
  have hread (io : IoContext) : NoBinary { c with io := io } := ⟨hc.readMsg, hc.published⟩
  exact (hread _).log trivial

theorem startRead {c : TcpClientImpl σ} (hc : NoBinary c) : NoBinary c.startRead := by
  have hbuf (rbuf : Bytes) : NoBinary { c with rbuf := rbuf } := ⟨hc.readMsg, hc.published⟩
  exact (hbuf _).asyncRead _ _ _

theorem retrieveHeader_binaryData (rbuf : Bytes) (msg : TcpMessage) :
    (retrieveHeader rbuf msg).1.binaryData = msg.binaryData := by
  simp only [retrieveHeader]

theorem retrieveBody_binaryData (rbuf : Bytes) (msg : TcpMessage) :
    (retrieveBody rbuf msg).binaryData = msg.binaryData := by
  unfold retrieveBody
  dsimp only
  split
  · rfl
  · rfl

theorem handleReadHeader (bus : Bus σ) {c : TcpClientImpl σ} (hc : NoBinary c) (ec : Bool) :
    NoBinary (c.handleReadHeader bus ec) := by
  have hframe := frame bus
  unfold TcpClientImpl.handleReadHeader
  split
  · exact hc
  · split
    · exact hframe.failSession c hc
    · have hmsg := retrieveHeader_binaryData c.rbuf c.readMsg
      generalize retrieveHeader c.rbuf c.readMsg = result at hmsg
      obtain ⟨msg, headerError⟩ := result
      have hbuf (rbuf : Bytes) : NoBinary { c with readMsg := msg, rbuf := rbuf } :=
        ⟨hmsg.trans hc.readMsg, hc.published⟩
      have hread : NoBinary (c.readRest msg) := (hbuf _).asyncRead _ _ _
      have hsent : NoBinary (((c.readRest msg).noteHeartbeatRsp msg).sendMessage bus
          (.kMsgReadHeader msg)) := (hframe.noteHeartbeatRsp _ msg hread).sendMessage bus _ trivial
      dsimp only
      split
      · exact hframe.failSession _ hsent
      · exact hsent

theorem handleReadBody (bus : Bus σ) {c : TcpClientImpl σ} (hc : NoBinary c) (ec : Bool) :
    NoBinary (c.handleReadBody bus ec) := by
  unfold TcpClientImpl.handleReadBody
  split
  · exact hc
  · split
    · exact (frame bus).failSession c hc
    · have hmsg := (retrieveBody_binaryData c.rbuf c.readMsg).trans hc.readMsg
      generalize retrieveBody c.rbuf c.readMsg = msg at hmsg
      have hbody : NoBinary { c with readMsg := msg } := ⟨hmsg, hc.published⟩
      exact (hbody.sendMessage bus (.kMsgReadBody msg) hmsg).startRead

theorem completeRead (bus : Bus σ) {c : TcpClientImpl σ} (hc : NoBinary c) (handler : ReadHandler)
    (ec : Bool) : NoBinary (c.completeRead bus handler ec) := by
  cases handler with
  | handleReadHeader => exact hc.handleReadHeader bus ec
  | handleReadBody => exact hc.handleReadBody bus ec

theorem handleConnect (bus : Bus σ) {c : TcpClientImpl σ} (hc : NoBinary c)
    (hopen : c.io.isOpen = true) : NoBinary (c.handleConnect bus false) := by
  have hframe := frame bus
  have hstart : NoBinary { c with stopped := false, closed := false, reconnectFlag := 0 } :=
    ⟨hc.readMsg, hc.published⟩
  have hread := (hstart.sendMessage bus .kMsgStart trivial).startRead
  have hwait := hframe.waitHeartbeatTimer _ (hframe.restartHeartbeatTimer _ hread)
  unfold TcpClientImpl.handleConnect
  rw [if_neg (by decide), if_neg (by simp [hopen])]
  exact ⟨hwait.readMsg, hwait.published⟩

end NoBinary

theorem step_noBinary (bus : Bus σ) (c : TcpClientImpl σ) (e : Event) (c' : TcpClientImpl σ)
    (hc : NoBinary c) (hstep : step bus c e = some c') : NoBinary c' := by
  cases readerStep_of_step hstep with
  | framed he => exact (NoBinary.frame bus).step he hstep hc
  | readDone i op hop hconnection hlength =>
      have htaken : NoBinary (takeInbox { c with io.reads := c.io.reads.eraseIdx i } op) :=
        ⟨hc.readMsg, hc.published⟩
      exact htaken.completeRead bus _ _
  | opened hconnects => exact NoBinary.handleConnect bus ⟨hc.readMsg, hc.published⟩ rfl

theorem run_noBinary (bus : Bus σ) {cfg : ClientConfig} {sub : σ} {es : List Event}
    {c : TcpClientImpl σ} (hrun : run (step bus) (init cfg sub).start es = some c) : NoBinary c := by
  have hinit : NoBinary (init cfg sub) := ⟨rfl, nofun⟩
  exact run_invariant (step_noBinary bus) ((NoBinary.frame bus).asyncConnect _ hinit) hrun

theorem filterMap_publishedContent {ts : List Trace} (hts : ∀ t ∈ ts, t.NoBinary) :
    ts.filterMap Trace.publishedContent =
      (ts.filterMap Trace.publishedBody).map fun content => (content.1, content.2, []) := by
  rw [List.map_filterMap]
  apply List.filterMap_congr
  intro t ht
  have hnone := hts t ht
  match t, hnone with
  | .published _ (.kMsgReadBody msg), hnone =>
      simp only [Trace.NoBinary] at hnone
      simp [Trace.publishedContent, Trace.publishedBody, hnone]
  | .connectIssued, _ => rfl
  | .readIssued _ _ _, _ => rfl
  | .writeIssued _ _, _ => rfl
  | .handed _ _, _ => rfl
  | .published _ .kMsgStart, _ => rfl
  | .published _ .kMsgTcpSessionError, _ => rfl
  | .published _ .kMsgClose, _ => rfl
  | .published _ .kMsgHeartbeatReq, _ => rfl
  | .published _ (.kMsgReadHeader _), _ => rfl

theorem NoBinary.publishedContents_eq {c : TcpClientImpl σ} (hc : NoBinary c) :
    c.publishedContents = c.publishedBodies.map fun content => (content.1, content.2, []) :=
  filterMap_publishedContent hc.published

end TcpClientImpl

end CloudEdgePush.Client
