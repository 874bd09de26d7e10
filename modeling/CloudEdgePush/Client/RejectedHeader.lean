import CloudEdgePush.Client.Reading

/-!
# Rejected headers

`handleReadHeader` finds out that a header is not acceptable and goes on with it: it resizes
`_rbuf`, requests the rest of the frame, takes a heart_rsp for an answer and publishes the
header.  Only then it closes the session.
-/

namespace CloudEdgePush.Client

open CloudEdgePush.Lib.Bytes

def Trace.published? : Trace → Option (Nat × BusMessage)
  | .published connection msg => some (connection, msg)
  | _ => none

def Rejected (header : Bytes) : Prop :=
  header.take 4 ≠ kProtoclHead ∨ kMaxMessageSize < fullMsgLenOf header

instance (header : Bytes) : Decidable (Rejected header) :=
  inferInstanceAs (Decidable (_ ∨ _))

namespace TcpClientImpl

variable {σ : Type}

def published (c : TcpClientImpl σ) : List (Nat × BusMessage) := c.trace.filterMap Trace.published?

structure HasHeader (c : TcpClientImpl σ) : Prop where
  complete : c.rbuf.length = 16
  syncBytes : c.readMsg.protoclHead.length = 4

/-- From `c` to `c'` there is no effect but that of closing and reconnecting. -/
structure OnlyCloses (c c' : TcpClientImpl σ) : Prop where
  recved : c'.isRecvedHeartbeatRsp = c.isRecvedHeartbeatRsp
  published : published c' = published c
  reads : c'.io.reads = c.io.reads
  bounded : c'.rbuf.length ≤ kMaxMessageSize.toNat

instance (c c' : TcpClientImpl σ) : Decidable (OnlyCloses c c') :=
  decidable_of_iff (c'.isRecvedHeartbeatRsp = c.isRecvedHeartbeatRsp ∧ published c' = published c ∧
      c'.io.reads = c.io.reads ∧ c'.rbuf.length ≤ kMaxMessageSize.toNat)
    ⟨fun h => ⟨h.1, h.2.1, h.2.2.1, h.2.2.2⟩, fun h => ⟨h.recved, h.published, h.reads, h.bounded⟩⟩

theorem rejected_iff {c : TcpClientImpl σ} (h : HasHeader c) :
    Rejected c.rbuf ↔ (retrieveHeader c.rbuf c.readMsg).2 = true := by
  have hsync : overwrite c.readMsg.protoclHead 0 (c.rbuf.take 4) = c.rbuf.take 4 := by
    apply overwrite_all
    rw [h.syncBytes, List.length_take, h.complete]
    rfl
  rw [(retrieveHeader_eq h.complete c.readMsg).2, hsync, Rejected, ne_comm]

theorem failSession_keeps (c : TcpClientImpl σ) :
    ∃ closed reconnectFlag posted expiry waits, c.failSession =
      { c with
        stopped := true
        closed := closed
        reconnectFlag := reconnectFlag
        io.posted := posted
        io.reconnectExpiry := expiry
        io.reconnectWaits := waits } := by
  have hclose : ∃ closed posted, c.close = { c with closed := closed, io.posted := posted } := by
    unfold close
    split
    · exact ⟨_, _, rfl⟩
    · exact ⟨_, _, rfl⟩
  obtain ⟨closed, posted, hclose⟩ := hclose
  unfold failSession startReconnect
  rw [hclose]
  dsimp only
  split
  · split
    · exact ⟨_, _, _, _, _, rfl⟩
    · split
      · exact ⟨_, _, _, _, _, rfl⟩
      · exact ⟨_, _, _, _, _, rfl⟩
  · exact ⟨_, _, _, _, _, rfl⟩

structure ActsOn (header : Bytes) (c c' : TcpClientImpl σ) : Prop where
  recved : c'.isRecvedHeartbeatRsp =
    (c.isRecvedHeartbeatRsp || decide (kHeartRsp = msgTypeOf header))
  published : ∃ msg, published c' = published c ++ [(c.io.connection, .kMsgReadHeader msg)]
  reads : ∃ op, c'.io.reads = c.io.reads ++ [op]
  length : c'.rbuf.length = (fullMsgLenOf header).toNat

variable (bus : Bus σ) {c : TcpClientImpl σ}

theorem published_sendMessage (c : TcpClientImpl σ) (msg : BusMessage) :
    published (c.sendMessage bus msg) = published c ++ [(c.io.connection, msg)] := by
  have hhanded (out : List TcpMessage) :
      (out.map (Trace.handed c.io.connection)).filterMap Trace.published? = [] := by
    rw [List.filterMap_map, List.filterMap_eq_nil_iff]
    intro m _
    rfl
  rw [sendMessage_eq]
  simp only [published, List.filterMap_append, List.filterMap_cons, hhanded]
  rfl

theorem noteHeartbeatRsp_eq (c : TcpClientImpl σ) (msg : TcpMessage) :
    c.noteHeartbeatRsp msg = { c with
      isRecvedHeartbeatRsp := c.isRecvedHeartbeatRsp || decide (kHeartRsp = msg.msgType) } := by
  unfold noteHeartbeatRsp
  by_cases hheart : kHeartRsp = msg.msgType
  · rw [if_pos hheart, decide_eq_true hheart, Bool.or_true]
  · rw [if_neg hheart, decide_eq_false hheart, Bool.or_false]

theorem actsOn_handleReadHeader (hheader : HasHeader c) (hrunning : c.stopped = false) :
    ActsOn c.rbuf c (c.handleReadHeader bus false) := by
  have hread := (retrieveHeader_eq hheader.complete c.readMsg).1
  unfold handleReadHeader
  rw [if_neg (by simp [hrunning]), if_neg (by decide)]
  generalize retrieveHeader c.rbuf c.readMsg = result at hread
  obtain ⟨msg, headerError⟩ := result
  have hlen : msg.fullMsgLen = fullMsgLenOf c.rbuf := congrArg TcpMessage.fullMsgLen hread
  have htype : msg.msgType = msgTypeOf c.rbuf := congrArg TcpMessage.msgType hread
  let d : TcpClientImpl σ := (c.readRest msg).noteHeartbeatRsp msg
  have hsent : ActsOn c.rbuf c (d.sendMessage bus (.kMsgReadHeader msg)) := by
    have hpublished := published_sendMessage bus d (.kMsgReadHeader msg)
    have hquiet : published d = published c := by
      simp [d, noteHeartbeatRsp_eq, published, readRest, asyncRead, log, Trace.published?]
    refine ⟨?_, ⟨msg, ?_⟩, ?_, ?_⟩
    · rw [sendMessage_eq, ← htype]
      simp only [d, noteHeartbeatRsp_eq]
      rfl
    · rw [hpublished, hquiet]
      simp only [d, noteHeartbeatRsp_eq]
      rfl
    · rw [sendMessage_eq]
      simp only [d, noteHeartbeatRsp_eq]
      exact ⟨_, rfl⟩
    · rw [sendMessage_eq, ← hlen]
      simp only [d, noteHeartbeatRsp_eq]
      exact length_resize _ _ _
  cases headerError with
  | false => exact hsent
  | true =>
      obtain ⟨closed, reconnectFlag, posted, expiry, waits, hfail⟩ :=
        failSession_keeps (d.sendMessage bus (.kMsgReadHeader msg))
      dsimp only
      rw [if_pos rfl, hfail]
      exact ⟨hsent.recved, hsent.published, hsent.reads, hsent.length⟩

theorem stopped_handleReadHeader (hheader : HasHeader c) (hrejected : Rejected c.rbuf) :
    (c.handleReadHeader bus false).stopped = true := by
  have herror := (rejected_iff hheader).mp hrejected
  unfold handleReadHeader
  by_cases hstopped : c.stopped = true
  · rw [if_pos hstopped]
    exact hstopped
  · rw [if_neg hstopped, if_neg (by decide)]
    generalize retrieveHeader c.rbuf c.readMsg = result at herror
    obtain ⟨msg, headerError⟩ := result
    obtain rfl : headerError = true := herror
    obtain ⟨closed, reconnectFlag, posted, expiry, waits, hfail⟩ := failSession_keeps
      (((c.readRest msg).noteHeartbeatRsp msg).sendMessage bus (.kMsgReadHeader msg))
    dsimp only
    rw [if_pos rfl, hfail]

/-- For every rejected header, in every state: the handler ends the session, and it has no other
effect if and only if the session had ended before, so that the header was not looked at. -/
theorem onlyCloses_iff (hheader : HasHeader c) (hrejected : Rejected c.rbuf) :
    (c.handleReadHeader bus false).stopped = true ∧
      (OnlyCloses c (c.handleReadHeader bus false) ↔ c.stopped = true) := by
  refine ⟨stopped_handleReadHeader bus hheader hrejected, ?_⟩
  constructor
  · intro honly
    by_contra hrunning
    obtain ⟨msg, hmsg⟩ := (actsOn_handleReadHeader bus hheader (by simpa using hrunning)).published
    rw [honly.published] at hmsg
    exact absurd hmsg (by simp)
  · intro hstopped
    have hsame : c.handleReadHeader bus false = c := if_pos hstopped
    rw [hsame]
    refine ⟨rfl, rfl, rfl, ?_⟩
    rw [hheader.complete]
    decide

/-! ## A heart_rsp with wrong sync bytes -/

def badHeartRsp : Bytes := [2, 1, 1, 1, 16, 0, 0, 0, 0xDC, 7, 0, 0, 0, 0, 0, 0]

def stoppedClient : TcpClientImpl Unit := { sampleClient with stopped := true, rbuf := badHeartRsp }

theorem onlyCloses_stopped :
    OnlyCloses stoppedClient (stoppedClient.handleReadHeader idleBus false) := by
  have hheader : HasHeader stoppedClient := by
    constructor
    · decide +kernel
    · decide +kernel
  exact (onlyCloses_iff idleBus hheader (by decide +kernel)).2.mpr rfl

/-- The session is closed, and the header counts as an answer and is published. -/
theorem acts_on_rejected_header : ¬ ∀ c : TcpClientImpl Unit, HasHeader c → Rejected c.rbuf →
    OnlyCloses c (c.handleReadHeader idleBus false) := by
  intro h
  have hheader : HasHeader { sampleClient with rbuf := badHeartRsp } := by
    constructor
    · decide +kernel
    · decide +kernel
  have honly := h { sampleClient with rbuf := badHeartRsp } hheader (by decide +kernel)
  exact absurd honly.recved (by decide +kernel)

end TcpClientImpl

end CloudEdgePush.Client
