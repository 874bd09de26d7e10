import CloudEdgePush.Client.Handlers

/-!
# The reading side of `TcpClientImpl`

What a handler can do to the reads of the client.  Most handlers do not touch them at all;
`Quiet` says so, and it composes.  The handlers that do are `startRead`, `handleReadHeader`
and `handleReadBody`, and their effect is given by one equation each.
-/

namespace CloudEdgePush.Client

open CloudEdgePush.Lib.Bytes CloudEdgePush.Lib.LittleEndian

/-- The target range of an `async_read`, and the size of `_rbuf` when it was issued. -/
structure ReadRequest where
  offset : Nat
  length : Nat
  bufferSize : Nat
deriving DecidableEq, Repr

def ReadRequest.InRange (r : ReadRequest) : Prop := r.offset + r.length ≤ r.bufferSize

instance (r : ReadRequest) : Decidable r.InRange :=
  inferInstanceAs (Decidable (r.offset + r.length ≤ r.bufferSize))

def Trace.readRequest : Trace → Option ReadRequest
  | .readIssued offset length bufferSize => some ⟨offset, length, bufferSize⟩
  | _ => none

/-! ## Header and body of a frame -/

def fullMsgLenOf (header : Bytes) : UInt32 := wordOfBytes ((header.drop 4).take 4)

def msgTypeOf (header : Bytes) : UInt32 := wordOfBytes ((header.drop 8).take 4)

/-- The header of a frame in the documented layout. -/
def wireHeader (fullLen typ bodyLen : Nat) : Bytes :=
  kProtoclHead ++ toLE 4 fullLen ++ toLE 4 typ ++ toLE 4 bodyLen

@[simp] theorem length_wireHeader (fullLen typ bodyLen : Nat) :
    (wireHeader fullLen typ bodyLen).length = 16 := by
  simp [wireHeader, kProtoclHead]

theorem take_wireHeader (fullLen typ bodyLen : Nat) :
    (wireHeader fullLen typ bodyLen).take 4 = kProtoclHead := by
  simp [wireHeader, kProtoclHead]

theorem fullMsgLenOf_wireHeader {fullLen : Nat} (hlt : fullLen < 2 ^ 32) (typ bodyLen : Nat) :
    (fullMsgLenOf (wireHeader fullLen typ bodyLen)).toNat = fullLen := by
  have hfield : ((wireHeader fullLen typ bodyLen).drop 4).take 4 = toLE 4 fullLen := by
    simp [wireHeader, kProtoclHead]
  rw [fullMsgLenOf, hfield, wordOfBytes, ofLE_toLE_of_lt hlt, UInt32.toNat_ofNat',
    Nat.mod_eq_of_lt hlt]

theorem msgTypeOf_wireHeader {typ : Nat} (hlt : typ < 2 ^ 32) (fullLen bodyLen : Nat) :
    msgTypeOf (wireHeader fullLen typ bodyLen) = UInt32.ofNat typ := by
  have hfield : ((wireHeader fullLen typ bodyLen).drop 8).take 4 = toLE 4 typ := by
    simp [wireHeader, kProtoclHead]
  rw [msgTypeOf, hfield, wordOfBytes, ofLE_toLE_of_lt hlt]

namespace TcpClientImpl

/-- The three words of a complete header, as the chain of `retrieve` calls finds them. -/
theorem retrieveHeader_eq {rbuf : Bytes} (hlen : rbuf.length = 16) (msg : TcpMessage) :
    (retrieveHeader rbuf msg).1 =
      { msg with
        protoclHead := overwrite msg.protoclHead 0 (rbuf.take 4)
        fullMsgLen := fullMsgLenOf rbuf
        msgType := msgTypeOf rbuf } ∧
    ((retrieveHeader rbuf msg).2 = true ↔
      kProtoclHead ≠ overwrite msg.protoclHead 0 (rbuf.take 4) ∨
        kMaxMessageSize < fullMsgLenOf rbuf) := by
  let buf := BytesBuffer.empty.append rbuf
  have hwf : buf.Wf := BytesBuffer.append_wf BytesBuffer.wf_empty rbuf
  have hread : buf.readable = rbuf := BytesBuffer.readable_empty_append rbuf
  have hwf₁ := BytesBuffer.retrieve_wf hwf 4
  have hread₁ : (buf.retrieve 4).readable = rbuf.drop 4 := by
    rw [BytesBuffer.readable_retrieve hwf (by rw [hread, hlen]; decide), hread]
  have hwf₂ := BytesBuffer.retrieve_wf hwf₁ 4
  have hread₂ : ((buf.retrieve 4).retrieve 4).readable = rbuf.drop 8 := by
    rw [BytesBuffer.readable_retrieve hwf₁ (by rw [hread₁, List.length_drop, hlen]; decide),
      hread₁, List.drop_drop]
  have h₀ : buf.retrieveInto 4 = (rbuf.take 4, buf.retrieve 4) := by
    rw [BytesBuffer.retrieveInto_eq hwf (by decide) (by rw [hread, hlen]; decide), hread]
  have h₁ : (buf.retrieve 4).retrieveInto 4 =
      ((rbuf.drop 4).take 4, (buf.retrieve 4).retrieve 4) := by
    rw [BytesBuffer.retrieveInto_eq hwf₁ (by decide)
      (by rw [hread₁, List.length_drop, hlen]; decide), hread₁]
  have h₂ : (((buf.retrieve 4).retrieve 4).retrieveInto 4).1 = (rbuf.drop 8).take 4 := by
    rw [BytesBuffer.retrieveInto_eq hwf₂ (by decide)
      (by rw [hread₂, List.length_drop, hlen]; decide), hread₂]
  have hword (k : Nat) (hk : k + 4 ≤ 16) (old : UInt32) :
      storeWord old ((rbuf.drop k).take 4) = wordOfBytes ((rbuf.drop k).take 4) := by
    apply storeWord_of_length
    rw [List.length_take, List.length_drop, hlen]
    omega
  simp only [retrieveHeader, kIntLen, buf] at h₀ h₁ h₂ ⊢
  simp only [h₀, h₁, h₂, hword 4 (by decide), hword 8 (by decide)]
  simp [fullMsgLenOf, msgTypeOf]

/-- A complete frame in `_rbuf`: the body replaces the last one only when it is not empty. -/
theorem retrieveBody_eq {header payload : Bytes} {msg : TcpMessage} (hheader : header.length = 16)
    (hlen : (msg.fullMsgLen - kTotalHeadLen).toNat = payload.length) :
    retrieveBody (header ++ payload) msg =
      { msg with
        bodyLen := msg.fullMsgLen - kTotalHeadLen
        body := if payload = [] then msg.body else payload } := by
  have hdrop : (header ++ payload).drop kTotalHeadLen.toNat = payload := by
    rw [show kTotalHeadLen.toNat = header.length by rw [hheader]; rfl, List.drop_left]
  have htake : payload.take (msg.fullMsgLen - kTotalHeadLen).toNat = payload := by
    rw [hlen, List.take_length]
  have hwf := BytesBuffer.append_wf BytesBuffer.wf_empty payload
  have hread := BytesBuffer.readable_empty_append payload
  have hpos : msg.fullMsgLen - kTotalHeadLen > 0 ↔ payload ≠ [] := by
    rw [gt_iff_lt, UInt32.lt_iff_toNat_lt, hlen, ← List.length_pos_iff]
    rfl
  simp only [retrieveBody, hdrop, htake, hpos]
  by_cases hnil : payload = []
  · simp [hnil]
  · rw [if_pos hnil, if_neg hnil, BytesBuffer.retrieveAsString_eq hwf (by rw [hread, hlen]),
      hread, htake]

/-! ## Requests issued -/

variable {σ : Type}

def issuedReads (c : TcpClientImpl σ) : List ReadRequest := c.trace.filterMap Trace.readRequest

/-! ## Handlers that do not read -/

/-- From `c` to `c'` no read was issued and the reading state did not change; outstanding
reads may have completed. -/
structure Quiet (c c' : TcpClientImpl σ) : Prop where
  connection : c'.io.connection = c.io.connection
  reads : c'.io.reads.Sublist c.io.reads
  rbuf : c'.rbuf = c.rbuf
  readMsg : c'.readMsg = c.readMsg
  issued : c'.issuedReads = c.issuedReads

namespace Quiet

theorem refl (c : TcpClientImpl σ) : Quiet c c := ⟨rfl, .refl _, rfl, rfl, rfl⟩

theorem trans {c₁ c₂ c₃ : TcpClientImpl σ} (h : Quiet c₁ c₂) (h' : Quiet c₂ c₃) : Quiet c₁ c₃ where
  connection := h'.connection.trans h.connection
  reads := h'.reads.trans h.reads
  rbuf := h'.rbuf.trans h.rbuf
  readMsg := h'.readMsg.trans h.readMsg
  issued := h'.issued.trans h.issued

theorem setIo (c : TcpClientImpl σ) (io : IoContext) (hconnection : io.connection = c.io.connection)
    (hreads : io.reads.Sublist c.io.reads) : Quiet c { c with io := io } :=
  ⟨hconnection, hreads, rfl, rfl, rfl⟩

theorem log {c : TcpClientImpl σ} {t : Trace} (ht : t.readRequest = none) : Quiet c (c.log t) := by
  refine ⟨rfl, .refl _, rfl, rfl, ?_⟩
  simp [issuedReads, TcpClientImpl.log, ht]

theorem sendMessage (bus : Bus σ) (c : TcpClientImpl σ) (msg : BusMessage) :
    Quiet c (c.sendMessage bus msg) := by
  rw [sendMessage_eq]
  refine ⟨rfl, .refl _, rfl, rfl, ?_⟩
  have hhanded (out : List TcpMessage) :
      (out.map (Trace.handed c.io.connection)).filterMap Trace.readRequest = [] := by
    rw [List.filterMap_map, List.filterMap_eq_nil_iff]
    intro m _
    rfl
  simp [issuedReads, Trace.readRequest]

theorem frame (bus : Bus σ) : Frame bus Quiet where
  refl := refl
  trans := trans
  setIo := setIo
  setWriter _ _ _ := ⟨rfl, .refl _, rfl, rfl, rfl⟩
  setSession _ _ _ _ _ := ⟨rfl, .refl _, rfl, rfl, rfl⟩
  stop _ := ⟨rfl, .refl _, rfl, rfl, rfl⟩
  logConnect _ := log rfl
  logWrite _ _ _ := log rfl
  sendError c := sendMessage bus c _
  sendHeartbeat c := sendMessage bus c _
  sendClose c := trans (sendMessage bus c _) ⟨rfl, .refl _, rfl, rfl, rfl⟩

end Quiet

/-! ## Handlers that read -/

structure Issues (c c' : TcpClientImpl σ) (req : ReadRequest) (handler : ReadHandler) : Prop where
  connection : c'.io.connection = c.io.connection
  reads : c'.io.reads.Sublist
    (c.io.reads ++ [⟨c.io.connection, req.offset, req.length, handler⟩])
  rbuf : c'.rbuf.length = req.bufferSize
  issued : c'.issuedReads = c.issuedReads ++ [req]

namespace Issues

theorem after {c₁ c₂ c₃ : TcpClientImpl σ} {req : ReadRequest} {handler : ReadHandler}
    (h : Quiet c₁ c₂) (h' : Issues c₂ c₃ req handler) : Issues c₁ c₃ req handler where
  connection := h'.connection.trans h.connection
  reads := by
    rw [← h.connection]
    exact h'.reads.trans (h.reads.append_right _)
  rbuf := h'.rbuf
  issued := by rw [h'.issued, h.issued]

theorem before {c₁ c₂ c₃ : TcpClientImpl σ} {req : ReadRequest} {handler : ReadHandler}
    (h : Issues c₁ c₂ req handler) (h' : Quiet c₂ c₃) : Issues c₁ c₃ req handler where
  connection := h'.connection.trans h.connection
  reads := h'.reads.trans h.reads
  rbuf := by rw [h'.rbuf, h.rbuf]
  issued := by rw [h'.issued, h.issued]

theorem asyncRead (c : TcpClientImpl σ) (offset length : Nat) (handler : ReadHandler) :
    Issues c (c.asyncRead offset length handler) ⟨offset, length, c.rbuf.length⟩ handler := by
  refine ⟨rfl, .refl _, rfl, ?_⟩
  simp [issuedReads, TcpClientImpl.asyncRead, log, Trace.readRequest]

theorem startRead (c : TcpClientImpl σ) :
    Issues c c.startRead ⟨0, 16, 16⟩ .handleReadHeader := by
  have h := asyncRead { c with rbuf := resize [] kTotalHeadLen.toNat 0 } 0 16 .handleReadHeader
  rw [length_resize] at h
  exact ⟨h.connection, h.reads, h.rbuf, h.issued⟩

theorem handleConnect (bus : Bus σ) {c : TcpClientImpl σ} (hopen : c.io.isOpen = true) :
    Issues c (c.handleConnect bus false) ⟨0, 16, 16⟩ .handleReadHeader := by
  have hstart : Quiet c { c with stopped := false, closed := false, reconnectFlag := 0 } :=
    ⟨rfl, .refl _, rfl, rfl, rfl⟩
  have hread := after (hstart.trans (Quiet.sendMessage bus _ .kMsgStart)) (startRead _)
  have hframe := Quiet.frame bus
  have htimer := (hread.before (hframe.restartHeartbeatTimer _)).before (hframe.waitHeartbeatTimer _)
  unfold TcpClientImpl.handleConnect
  rw [if_neg (by decide), if_neg (by simp [hopen])]
  exact htimer.before ⟨rfl, .refl _, rfl, rfl, rfl⟩

theorem handleReadBody (bus : Bus σ) {c : TcpClientImpl σ} (hrun : c.stopped = false) :
    Issues c (c.handleReadBody bus false) ⟨0, 16, 16⟩ .handleReadHeader := by
  have hmsg (m : TcpMessage) :
      Issues { c with readMsg := m }
        (({ c with readMsg := m }.sendMessage bus (.kMsgReadBody m)).startRead)
        ⟨0, 16, 16⟩ .handleReadHeader :=
    after (Quiet.sendMessage bus _ _) (startRead _)
  unfold TcpClientImpl.handleReadBody
  rw [if_neg (by simp [hrun]), if_neg (by decide)]
  obtain ⟨hconnection, hreads, hrbuf, hissued⟩ := hmsg (retrieveBody c.rbuf c.readMsg)
  exact ⟨hconnection, hreads, hrbuf, hissued⟩

theorem readRest (c : TcpClientImpl σ) (msg : TcpMessage) :
    Issues c (c.readRest msg)
      ⟨16, (msg.fullMsgLen - kTotalHeadLen).toNat, msg.fullMsgLen.toNat⟩ .handleReadBody := by
  have h := asyncRead { c with readMsg := msg, rbuf := resize c.rbuf msg.fullMsgLen.toNat 0 }
    16 (msg.fullMsgLen - kTotalHeadLen).toNat .handleReadBody
  rw [length_resize] at h
  exact ⟨h.connection, h.reads, h.rbuf, h.issued⟩

theorem handleReadHeader (bus : Bus σ) {c : TcpClientImpl σ} (hrun : c.stopped = false) :
    Issues c (c.handleReadHeader bus false)
      ⟨16, ((retrieveHeader c.rbuf c.readMsg).1.fullMsgLen - kTotalHeadLen).toNat,
        (retrieveHeader c.rbuf c.readMsg).1.fullMsgLen.toNat⟩ .handleReadBody := by
  unfold TcpClientImpl.handleReadHeader
  rw [if_neg (by simp [hrun]), if_neg (by decide)]
  generalize retrieveHeader c.rbuf c.readMsg = result
  obtain ⟨msg, headerError⟩ := result
  have hread := (readRest c msg).before ((Quiet.frame bus).noteHeartbeatRsp _ msg)
  have hsent := hread.before (Quiet.sendMessage bus _ (.kMsgReadHeader msg))
  cases headerError with
  | false => exact hsent
  | true => exact hsent.before ((Quiet.frame bus).failSession _)

end Issues

end TcpClientImpl

end CloudEdgePush.Client
