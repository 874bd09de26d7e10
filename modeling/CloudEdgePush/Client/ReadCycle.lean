import CloudEdgePush.Lib.Transition
import CloudEdgePush.Client.Reading

/-!
# The header and body cycle

On a connection without errors the client alternates between a header and a body.
`AwaitsHeader` and `AwaitsBody` are the two phases; `readDone_header` and `readDone_body`
are the steps between them, and `run_receives` follows any stream of frames through them,
however its bytes are cut into pieces.  The one message object `_readMsg` is reused: a frame
with an empty body is published with the body of the last frame that had one
(`publishedOf`).
-/

namespace CloudEdgePush.Client

open CloudEdgePush.Lib.Bytes CloudEdgePush.Lib.LittleEndian CloudEdgePush.Lib.Transition

def Trace.publishedBody : Trace → Option (UInt32 × Bytes)
  | .published _ (.kMsgReadBody msg) => some (msg.msgType, msg.body)
  | _ => none

/-- A frame as the client takes it apart: sixteen bytes of header and a body. -/
structure RawFrame where
  header : Bytes
  body : Bytes
  header_length : header.length = 16
  head : header.take 4 = kProtoclHead
  fullMsgLen : (fullMsgLenOf header).toNat = body.length + 16
  body_le : body.length ≤ 64 * 1024 * 1024 - 16

namespace RawFrame

def bytes (f : RawFrame) : Bytes := f.header ++ f.body

def content (f : RawFrame) : UInt32 × Bytes := (msgTypeOf f.header, f.body)

theorem length_body (f : RawFrame) :
    (fullMsgLenOf f.header - kTotalHeadLen).toNat = f.body.length := by
  have hhead : kTotalHeadLen.toNat = 16 := rfl
  have hfull := f.fullMsgLen
  rw [UInt32.toNat_sub_of_le _ _ (by rw [UInt32.le_iff_toNat_le, hhead]; omega), hfull, hhead]
  omega

end RawFrame

/-- The body that `_readMsg` holds after a frame, when it held `last` before. -/
def bodyAfter (last : Bytes) (f : RawFrame) : Bytes := if f.body = [] then last else f.body

def publishedOf : Bytes → List RawFrame → List (UInt32 × Bytes)
  | _, [] => []
  | last, f :: fs => (msgTypeOf f.header, bodyAfter last f) :: publishedOf (bodyAfter last f) fs

/-- Every frame is published with its own body if and only if no frame with an empty body
comes after a body that is not empty. -/
theorem publishedOf_eq_iff (last : Bytes) (fs : List RawFrame) :
    publishedOf last fs = fs.map RawFrame.content ↔
      (last :: fs.map RawFrame.body).Pairwise fun earlier later => later = [] → earlier = [] := by
  induction fs generalizing last with
  | nil => simp [publishedOf]
  | cons f fs ih =>
      have hown : bodyAfter last f = f.body ↔ (f.body = [] → last = []) := by
        unfold bodyAfter
        by_cases hempty : f.body = []
        · simp [hempty]
        · simp [hempty]
      rw [publishedOf, List.map_cons, List.cons_eq_cons, RawFrame.content, Prod.mk.injEq,
        eq_self, true_and, hown, List.map_cons, List.pairwise_cons, List.forall_mem_cons]
      constructor
      · rintro ⟨hfirst, hrest⟩
        rw [hown.mpr hfirst, ih] at hrest
        refine ⟨⟨hfirst, ?_⟩, hrest⟩
        intro body hbody hnil
        exact hfirst ((List.pairwise_cons.mp hrest).1 body hbody hnil)
      · rintro ⟨⟨hfirst, -⟩, hrest⟩
        refine ⟨hfirst, ?_⟩
        rw [hown.mpr hfirst, ih]
        exact hrest

namespace TcpClientImpl

variable {σ : Type}

def publishedBodies (c : TcpClientImpl σ) : List (UInt32 × Bytes) :=
  c.trace.filterMap Trace.publishedBody

/-! ## Steps that keep the session -/

/-- From `c` to `c'` the reading side, the socket and `_stopped` did not change, and no body
was published. -/
structure SameReader (c c' : TcpClientImpl σ) : Prop where
  stopped : c'.stopped = c.stopped
  isOpen : c'.io.isOpen = c.io.isOpen
  connection : c'.io.connection = c.io.connection
  inbox : c'.io.inbox = c.io.inbox
  reads : c'.io.reads = c.io.reads
  rbuf : c'.rbuf = c.rbuf
  readMsg : c'.readMsg = c.readMsg

theorem SameReader.trans {c₁ c₂ c₃ : TcpClientImpl σ} (h : SameReader c₁ c₂)
    (h' : SameReader c₂ c₃) : SameReader c₁ c₃ where
  stopped := h'.stopped.trans h.stopped
  isOpen := h'.isOpen.trans h.isOpen
  connection := h'.connection.trans h.connection
  inbox := h'.inbox.trans h.inbox
  reads := h'.reads.trans h.reads
  rbuf := h'.rbuf.trans h.rbuf
  readMsg := h'.readMsg.trans h.readMsg

theorem SameReader.sendMessage (bus : Bus σ) (c : TcpClientImpl σ) (msg : BusMessage) :
    SameReader c (c.sendMessage bus msg) := by
  rw [sendMessage_eq]
  exact ⟨rfl, rfl, rfl, rfl, rfl, rfl, rfl⟩

theorem SameReader.noteHeartbeatRsp (c : TcpClientImpl σ) (msg : TcpMessage) :
    SameReader c (c.noteHeartbeatRsp msg) := by
  unfold TcpClientImpl.noteHeartbeatRsp
  split
  · exact ⟨rfl, rfl, rfl, rfl, rfl, rfl, rfl⟩
  · exact ⟨rfl, rfl, rfl, rfl, rfl, rfl, rfl⟩

theorem publishedBodies_sendMessage (bus : Bus σ) (c : TcpClientImpl σ) (msg : BusMessage) :
    (c.sendMessage bus msg).publishedBodies =
      c.publishedBodies ++ (Trace.publishedBody (.published c.io.connection msg)).toList := by
  have hhanded (out : List TcpMessage) :
      (out.map (Trace.handed c.io.connection)).filterMap Trace.publishedBody = [] := by
    rw [List.filterMap_map, List.filterMap_eq_nil_iff]
    intro m _
    rfl
  rw [sendMessage_eq]
  simp only [publishedBodies, List.filterMap_append, List.filterMap_cons, hhanded]
  cases Trace.publishedBody (.published c.io.connection msg) with
  | none => rfl
  | some body => rfl

/-! ## The two phases -/

structure AwaitsHeader (c : TcpClientImpl σ) : Prop where
  running : c.stopped = false
  isOpen : c.io.isOpen = true
  reads : c.io.reads = [⟨c.io.connection, 0, 16, .handleReadHeader⟩]
  rbuf : c.rbuf.length = 16
  head : c.readMsg.protoclHead.length = 4

structure AwaitsBody (c : TcpClientImpl σ) (f : RawFrame) : Prop where
  running : c.stopped = false
  isOpen : c.io.isOpen = true
  reads : c.io.reads = [⟨c.io.connection, 16, f.body.length, .handleReadBody⟩]
  rbuf : c.rbuf = f.header ++ List.replicate f.body.length 0
  head : c.readMsg.protoclHead.length = 4
  fullMsgLen : c.readMsg.fullMsgLen = fullMsgLenOf f.header
  msgType : c.readMsg.msgType = msgTypeOf f.header

theorem readDone_single (bus : Bus σ) {c : TcpClientImpl σ} {op : ReadOp}
    (hreads : c.io.reads = [op]) (hconnection : op.connection = c.io.connection)
    (hlen : op.length ≤ c.io.inbox.length) :
    step bus c (.readDone 0) =
      some (({ c with io.reads := [] }.takeInbox op).completeRead bus op.handler false) := by
  simp [step, hreads, hconnection, hlen]

theorem retrieveHeader_accepts (f : RawFrame) {msg : TcpMessage}
    (hmsg : msg.protoclHead.length = 4) :
    retrieveHeader f.header msg =
      ({ msg with
          protoclHead := kProtoclHead
          fullMsgLen := fullMsgLenOf f.header
          msgType := msgTypeOf f.header }, false) := by
  obtain ⟨hmessage, herror⟩ := retrieveHeader_eq f.header_length msg
  have hhead : overwrite msg.protoclHead 0 (f.header.take 4) = kProtoclHead := by
    rw [f.head, overwrite_all (by rw [hmsg]; rfl)]
  have hmax : ¬ kMaxMessageSize < fullMsgLenOf f.header := by
    have hle := f.body_le
    have hlimit : kMaxMessageSize.toNat = 64 * 1024 * 1024 := rfl
    rw [UInt32.lt_iff_toNat_lt, f.fullMsgLen, hlimit]
    omega
  rw [hhead] at hmessage herror
  have hfalse : (retrieveHeader f.header msg).2 = false := by
    rw [Bool.eq_false_iff, Ne, herror]
    simp [hmax]
  exact Prod.ext hmessage hfalse

theorem handleReadHeader_accepts (bus : Bus σ) {c : TcpClientImpl σ} {msg : TcpMessage}
    (hrunning : c.stopped = false) (hheader : retrieveHeader c.rbuf c.readMsg = (msg, false)) :
    c.handleReadHeader bus false =
      ((c.readRest msg).noteHeartbeatRsp msg).sendMessage bus (.kMsgReadHeader msg) := by
  unfold handleReadHeader
  rw [if_neg (by simp [hrunning]), if_neg (by decide), hheader]
  rfl

theorem publishedBodies_noteHeartbeatRsp (c : TcpClientImpl σ) (msg : TcpMessage) :
    (c.noteHeartbeatRsp msg).publishedBodies = c.publishedBodies := by
  unfold noteHeartbeatRsp
  split
  · rfl
  · rfl

theorem publishedBodies_readRest (c : TcpClientImpl σ) (msg : TcpMessage) :
    (c.readRest msg).publishedBodies = c.publishedBodies := by
  simp only [publishedBodies, readRest, asyncRead, log, List.filterMap_append]
  exact List.append_nil _

theorem readDone_header (bus : Bus σ) {c : TcpClientImpl σ} (hc : AwaitsHeader c) (f : RawFrame)
    {rest : Bytes} (hinbox : c.io.inbox = f.header ++ rest) :
    ∃ c', step bus c (.readDone 0) = some c' ∧ AwaitsBody c' f ∧ c'.io.inbox = rest ∧
      c'.readMsg.body = c.readMsg.body ∧ c'.publishedBodies = c.publishedBodies := by
  let op : ReadOp := ⟨c.io.connection, 0, 16, .handleReadHeader⟩
  let c₁ := { c with io.reads := [] }.takeInbox op
  have hlen : op.length ≤ c.io.inbox.length := by
    simp [op, hinbox, f.header_length]
  have hstep := readDone_single bus hc.reads rfl hlen
  have htake : c.io.inbox.take 16 = f.header := by
    rw [hinbox, ← f.header_length, List.take_left]
  have hrest : c₁.io.inbox = rest := by
    show c.io.inbox.drop 16 = rest
    rw [hinbox, ← f.header_length, List.drop_left]
  have hrbuf : c₁.rbuf = f.header := by
    show overwrite c.rbuf 0 (c.io.inbox.take 16) = f.header
    rw [htake, overwrite_all (by rw [f.header_length, hc.rbuf])]
  let msg : TcpMessage := { c.readMsg with
    protoclHead := kProtoclHead
    fullMsgLen := fullMsgLenOf f.header
    msgType := msgTypeOf f.header }
  have hheader : retrieveHeader c₁.rbuf c₁.readMsg = (msg, false) := by
    rw [hrbuf]
    exact retrieveHeader_accepts f hc.head
  have hhandled := handleReadHeader_accepts bus (c := c₁) hc.running hheader
  have hsame := (SameReader.noteHeartbeatRsp (c₁.readRest msg) msg).trans
    (SameReader.sendMessage bus _ (.kMsgReadHeader msg))
  rw [← hhandled] at hsame
  refine ⟨c₁.handleReadHeader bus false, hstep, ⟨?_, ?_, ?_, ?_, ?_, ?_, ?_⟩, ?_, ?_, ?_⟩
  · exact hsame.stopped.trans hc.running
  · exact hsame.isOpen.trans hc.isOpen
  · rw [hsame.reads, hsame.connection, ← f.length_body]
    rfl
  · rw [hsame.rbuf]
    show resize c₁.rbuf (fullMsgLenOf f.header).toNat 0 = _
    rw [hrbuf, resize_of_le 0 (by rw [f.header_length, f.fullMsgLen]; omega), f.fullMsgLen,
      f.header_length, Nat.add_sub_cancel]
  · rw [hsame.readMsg]
    rfl
  · rw [hsame.readMsg]
    rfl
  · rw [hsame.readMsg]
    rfl
  · exact hsame.inbox.trans hrest
  · rw [hsame.readMsg]
    rfl
  · rw [hhandled, publishedBodies_sendMessage, publishedBodies_noteHeartbeatRsp,
      publishedBodies_readRest]
    exact List.append_nil _

theorem publishedBodies_startRead (c : TcpClientImpl σ) :
    c.startRead.publishedBodies = c.publishedBodies := by
  simp only [publishedBodies, startRead, asyncRead, log, List.filterMap_append]
  exact List.append_nil _

theorem readDone_body (bus : Bus σ) {c : TcpClientImpl σ} {f : RawFrame} (hc : AwaitsBody c f)
    {rest : Bytes} (hinbox : c.io.inbox = f.body ++ rest) :
    ∃ c', step bus c (.readDone 0) = some c' ∧ AwaitsHeader c' ∧ c'.io.inbox = rest ∧
      c'.readMsg.body = bodyAfter c.readMsg.body f ∧
      c'.publishedBodies =
        c.publishedBodies ++ [(msgTypeOf f.header, bodyAfter c.readMsg.body f)] := by
  let op : ReadOp := ⟨c.io.connection, 16, f.body.length, .handleReadBody⟩
  let c₁ := { c with io.reads := [] }.takeInbox op
  have hstep := readDone_single bus hc.reads rfl (by simp [hinbox])
  have hrest : c₁.io.inbox = rest := by
    show c.io.inbox.drop f.body.length = rest
    rw [hinbox, List.drop_left]
  have hrbuf : c₁.rbuf = f.header ++ f.body := by
    show overwrite c.rbuf 16 (c.io.inbox.take f.body.length) = _
    rw [hinbox, List.take_left, hc.rbuf, ← f.header_length,
      overwrite_tail (List.length_replicate.symm)]
  let msg : TcpMessage := { c.readMsg with
    bodyLen := c.readMsg.fullMsgLen - kTotalHeadLen
    body := bodyAfter c.readMsg.body f }
  have hlength : (c.readMsg.fullMsgLen - kTotalHeadLen).toNat = f.body.length := by
    rw [hc.fullMsgLen]
    exact f.length_body
  have hbody : retrieveBody c₁.rbuf c₁.readMsg = msg := by
    rw [hrbuf]
    exact retrieveBody_eq f.header_length hlength
  let sent := { c₁ with readMsg := msg }.sendMessage bus (.kMsgReadBody msg)
  have hhandled : c₁.handleReadBody bus false = sent.startRead := by
    unfold handleReadBody
    rw [if_neg (by simp [c₁, takeInbox, hc.running]), if_neg (by decide), hbody]
  have hsame : SameReader { c₁ with readMsg := msg } sent :=
    SameReader.sendMessage bus _ (.kMsgReadBody msg)
  have hpublished : sent.publishedBodies = c.publishedBodies ++ [(msg.msgType, msg.body)] :=
    publishedBodies_sendMessage bus _ (.kMsgReadBody msg)
  refine ⟨c₁.handleReadBody bus false, hstep, ?_⟩
  rw [hhandled]
  refine ⟨⟨?_, ?_, ?_, ?_, ?_⟩, ?_, ?_, ?_⟩
  · exact hsame.stopped.trans hc.running
  · exact hsame.isOpen.trans hc.isOpen
  · show sent.io.reads ++ [⟨sent.io.connection, 0, 16, .handleReadHeader⟩] = _
    rw [hsame.reads]
    rfl
  · exact length_resize _ _ _
  · show sent.readMsg.protoclHead.length = 4
    rw [hsame.readMsg]
    exact hc.head
  · exact hsame.inbox.trans hrest
  · show sent.readMsg.body = _
    rw [hsame.readMsg]
  · rw [publishedBodies_startRead, hpublished, ← hc.msgType]

/-! ## Streams of frames -/

def Event.isReader : Event → Bool
  | .arrive _ => true
  | .readDone 0 => true
  | _ => false

def arrived : List Event → Bytes
  | [] => []
  | .arrive chunk :: es => chunk ++ arrived es
  | _ :: es => arrived es

/-- The client's place in a stream.  `ahead` has still to arrive, `fs` are the frames not yet
published, and `n` reads are needed for them. -/
inductive Expecting (c : TcpClientImpl σ) (ahead : Bytes) : List RawFrame → Nat → Prop
  | header (fs : List RawFrame) (hc : AwaitsHeader c)
      (hstream : c.io.inbox ++ ahead = fs.flatMap RawFrame.bytes) :
      Expecting c ahead fs (2 * fs.length)
  | body (f : RawFrame) (fs : List RawFrame) (hc : AwaitsBody c f)
      (hstream : c.io.inbox ++ ahead = f.body ++ fs.flatMap RawFrame.bytes) :
      Expecting c ahead (f :: fs) (2 * fs.length + 1)

theorem inbox_split {inbox ahead first others : Bytes} (h : inbox ++ ahead = first ++ others)
    (hlen : first.length ≤ inbox.length) :
    ∃ rest, inbox = first ++ rest ∧ rest ++ ahead = others := by
  have hprefix : first <+: inbox :=
    List.prefix_of_prefix_length_le ⟨others, h.symm⟩ (List.prefix_append inbox ahead) hlen
  obtain ⟨rest, rfl⟩ := hprefix
  refine ⟨rest, rfl, ?_⟩
  rw [List.append_assoc] at h
  exact List.append_cancel_left h

theorem readDone_needs (bus : Bus σ) {c c' : TcpClientImpl σ} {op : ReadOp}
    (hreads : c.io.reads = [op]) (hstep : step bus c (.readDone 0) = some c') :
    op.length ≤ c.io.inbox.length := by
  by_contra hlen
  simp [step, hreads, hlen] at hstep

theorem Expecting.arrive (bus : Bus σ) {c c' : TcpClientImpl σ} {chunk ahead : Bytes}
    {fs : List RawFrame} {n : Nat} (h : Expecting c (chunk ++ ahead) fs n)
    (hstep : step bus c (.arrive chunk) = some c') :
    Expecting c' ahead fs n ∧ c'.publishedBodies = c.publishedBodies ∧ c'.readMsg = c.readMsg := by
  cases handled_of_step hstep with
  | arrive chunk hopen =>
      refine ⟨?_, rfl, rfl⟩
      cases h with
      | header fs hc hstream =>
          refine .header fs ⟨hc.running, hc.isOpen, hc.reads, hc.rbuf, hc.head⟩ ?_
          rw [← hstream, ← List.append_assoc]
      | body f fs hc hstream =>
          refine .body f fs ⟨hc.running, hc.isOpen, hc.reads, hc.rbuf, hc.head, hc.fullMsgLen,
            hc.msgType⟩ ?_
          rw [← hstream, ← List.append_assoc]

theorem Expecting.readDone (bus : Bus σ) {c c' : TcpClientImpl σ} {ahead : Bytes}
    {fs : List RawFrame} {n : Nat} (h : Expecting c ahead fs (n + 1))
    (hstep : step bus c (.readDone 0) = some c') :
    ∃ fs', Expecting c' ahead fs' n ∧
      c'.publishedBodies ++ publishedOf c'.readMsg.body fs' =
        c.publishedBodies ++ publishedOf c.readMsg.body fs := by
  generalize hm : n + 1 = m at h
  cases h with
  | header fs hc hstream =>
      cases fs with
      | nil => cases hm
      | cons f fs =>
          rw [List.flatMap_cons, RawFrame.bytes, List.append_assoc] at hstream
          have hneeds := readDone_needs bus hc.reads hstep
          obtain ⟨rest, hinbox, hrest⟩ := inbox_split hstream (by rw [f.header_length]; exact hneeds)
          obtain ⟨c₁, hstep₁, hbody, hinbox₁, hlast, hpublished⟩ := readDone_header bus hc f hinbox
          obtain rfl : c₁ = c' := Option.some.inj (hstep₁.symm.trans hstep)
          obtain rfl : n = 2 * fs.length + 1 := by
            rw [List.length_cons] at hm
            omega
          refine ⟨f :: fs, .body f fs hbody (by rw [hinbox₁, hrest]), ?_⟩
          rw [hpublished, hlast]
  | body f fs hc hstream =>
      have hneeds := readDone_needs bus hc.reads hstep
      obtain ⟨rest, hinbox, hrest⟩ := inbox_split hstream hneeds
      obtain ⟨c₁, hstep₁, hheader, hinbox₁, hlast, hpublished⟩ := readDone_body bus hc hinbox
      obtain rfl : c₁ = c' := Option.some.inj (hstep₁.symm.trans hstep)
      obtain rfl : n = 2 * fs.length := by omega
      refine ⟨fs, .header fs hheader (by rw [hinbox₁, hrest]), ?_⟩
      rw [hpublished, hlast, publishedOf, List.append_assoc]
      rfl

/-- Any stream of frames, cut into pieces in any way and read to its end. -/
theorem run_receives (bus : Bus σ) {c c' : TcpClientImpl σ} {es : List Event}
    {fs : List RawFrame} {n : Nat} (h : Expecting c (arrived es) fs n)
    (hreader : ∀ e ∈ es, e.isReader = true) (hcount : es.count (.readDone 0) = n)
    (hrun : run (step bus) c es = some c') :
    c'.publishedBodies = c.publishedBodies ++ publishedOf c.readMsg.body fs := by
  induction es generalizing c fs n with
  | nil =>
      obtain rfl : c = c' := by simpa using hrun
      cases h with
      | header fs hc hstream =>
          obtain rfl : fs = [] := by
            rw [List.count_nil] at hcount
            exact List.length_eq_zero_iff.mp (by omega)
          exact (List.append_nil _).symm
      | body f fs hc hstream => cases hcount
  | cons e es ih =>
      obtain ⟨c₁, hstep, hrest⟩ := run_cons_eq_some.mp hrun
      rw [List.forall_mem_cons] at hreader
      obtain ⟨he, hes⟩ := hreader
      cases e with
      | arrive chunk =>
          obtain ⟨hnext, hpublished, hreadMsg⟩ := h.arrive bus hstep
          rw [List.count_cons_of_ne (by simp)] at hcount
          rw [ih hnext hes hcount hrest, hpublished, hreadMsg]
      | readDone i =>
          obtain rfl : i = 0 := by
            cases i with
            | zero => rfl
            | succ i => cases he
          rw [List.count_cons_self] at hcount
          subst hcount
          obtain ⟨fs', hnext, houtcome⟩ := Expecting.readDone bus h hstep
          rw [ih hnext hes rfl hrest, houtcome]
      | _ => cases he

end TcpClientImpl

end CloudEdgePush.Client
