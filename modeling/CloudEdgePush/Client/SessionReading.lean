import CloudEdgePush.Client.SessionStart

/-!
# Reading while everything else goes on

`ReadCycle` follows a stream through the read handlers alone.  Here the client also writes, keeps
its timers and hears its user, and a read that is over waits in the queue for its handler.  As
long as the session lasts none of this touches the reading side (`Untouched`), so the client is
always in one of the four phases of `Reads`.
-/

namespace CloudEdgePush.Client

open CloudEdgePush.Lib CloudEdgePush.Lib.Bytes CloudEdgePush.Lib.Transition
open CloudEdgePush.Lib.EventLoop

namespace TcpClientImpl

variable {σ : Type} (bus : Bus σ) {c c' : TcpClientImpl σ} {f : RawFrame}

/-! ## Handlers that do not read -/

/-- From `c` to `c'` the reading side did not change, and no body was published. -/
structure Untouched (c c' : TcpClientImpl σ) : Prop where
  reader : SameReader c c'
  published : c'.publishedBodies = c.publishedBodies

namespace Untouched

theorem refl (c : TcpClientImpl σ) : Untouched c c := ⟨⟨rfl, rfl, rfl, rfl, rfl, rfl, rfl⟩, rfl⟩

theorem trans {c₁ c₂ c₃ : TcpClientImpl σ} (h : Untouched c₁ c₂) (h' : Untouched c₂ c₃) :
    Untouched c₁ c₃ := ⟨h.reader.trans h'.reader, h'.published.trans h.published⟩

theorem sendMessage (c : TcpClientImpl σ) {msg : BusMessage}
    (hbody : ∀ m, msg ≠ .kMsgReadBody m) : Untouched c (c.sendMessage bus msg) := by
  refine ⟨.sendMessage bus c msg, ?_⟩
  rw [publishedBodies_sendMessage]
  cases msg with
  | kMsgReadBody m => exact absurd rfl (hbody m)
  | _ => exact List.append_nil _

theorem log (c : TcpClientImpl σ) {t : Trace} (ht : t.publishedBody = none) :
    Untouched c (c.log t) := by
  refine ⟨⟨rfl, rfl, rfl, rfl, rfl, rfl, rfl⟩, ?_⟩
  simp [publishedBodies, TcpClientImpl.log, ht]

theorem setWriter (c : TcpClientImpl σ) (writeMsgs : List TcpMessage) (wbuf : Bytes)
    (writes : List WriteOp) :
    Untouched c { c with writeMsgs := writeMsgs, wbuf := wbuf, io.writes := writes } :=
  ⟨⟨rfl, rfl, rfl, rfl, rfl, rfl, rfl⟩, rfl⟩

theorem setSession (c : TcpClientImpl σ) (closed : Bool) (reconnectFlag lost : Nat) (isRecved : Bool)
    (heartbeatExpiry : Option Nat) (reconnectExpiry : Nat)
    (heartbeatWaits reconnectWaits : List Bool) (posted : List Posted) :
    Untouched c { c with
      closed := closed, reconnectFlag := reconnectFlag, heartBeatLostTimes := lost
      isRecvedHeartbeatRsp := isRecved, io.heartbeatExpiry := heartbeatExpiry
      io.reconnectExpiry := reconnectExpiry, io.heartbeatWaits := heartbeatWaits
      io.reconnectWaits := reconnectWaits, io.posted := posted } :=
  ⟨⟨rfl, rfl, rfl, rfl, rfl, rfl, rfl⟩, rfl⟩

theorem doWrite (c : TcpClientImpl σ) (msg : TcpMessage) : Untouched c (c.doWrite msg) :=
  (setWriter c _ _ _).trans (log _ rfl)

theorem startWrite (c : TcpClientImpl σ) (msg : TcpMessage) : Untouched c (c.startWrite msg) := by
  have hpush := setWriter c (c.writeMsgs ++ [msg]) c.wbuf c.io.writes
  unfold TcpClientImpl.startWrite
  dsimp only
  split
  · exact refl c
  · split
    · exact hpush
    · split
      · exact hpush
      · exact hpush.trans (doWrite _ _)

theorem handleWrite (c : TcpClientImpl σ) : Untouched c (c.handleWrite false) := by
  have hpop := setWriter c c.writeMsgs.tail c.wbuf c.io.writes
  unfold TcpClientImpl.handleWrite
  rw [if_neg (show ¬false = true by decide)]
  dsimp only
  split
  · exact refl c
  · split
    · exact hpop
    · exact hpop.trans (doWrite _ _)

theorem close (c : TcpClientImpl σ) : Untouched c c.close := by
  unfold TcpClientImpl.close
  split
  · exact refl c
  · exact setSession c true _ _ _ _ _ _ _ _

theorem startReconnect (c : TcpClientImpl σ) : Untouched c c.startReconnect := by
  unfold TcpClientImpl.startReconnect
  dsimp only
  split
  · exact setSession c _ _ _ _ _ _ _ _ _
  · split
    · exact setSession c _ _ _ _ _ _ _ _ _
    · exact setSession c _ _ _ _ _ _ _ _ _

theorem heartbeatTick (c : TcpClientImpl σ) : Untouched c (c.heartbeatTick bus) := by
  unfold TcpClientImpl.heartbeatTick
  split
  · exact (sendMessage bus c (by simp)).trans (setSession _ _ _ _ _ _ _ _ _ _)
  · split
    · exact ((close c).trans (setSession _ _ _ _ _ _ _ _ _ _)).trans (startReconnect _)
    · exact (setSession c _ _ _ _ _ _ _ _ _).trans (sendMessage bus _ (by simp))

theorem checkHeartbeat (c : TcpClientImpl σ) : Untouched c (c.checkHeartbeat bus) := by
  unfold TcpClientImpl.checkHeartbeat
  split
  · exact refl c
  · split
    · exact (heartbeatTick bus c).trans (setSession _ _ _ _ _ _ _ _ _ _)
    · exact setSession c _ _ _ _ _ _ _ _ _

end Untouched

theorem stopped_failSession (c : TcpClientImpl σ) : c.failSession.stopped = true := by
  obtain ⟨_, _, _, hlost⟩ := Link.onlyReconnects_lost c.link
  exact congrArg Link.stopped ((failSession_spec c).1.trans hlost)

theorem untouched_handle {r : Ready} (hread : r.isRead = false) (hconnect : r.isConnect = false)
    (hrunning : (c.handle bus r).stopped = false) (hopen : (c.handle bus r).io.isOpen = true) :
    Untouched c (c.handle bus r) := by
  cases r with
  | handleConnect ec => cases hconnect
  | handleRead op ec => cases hread
  | handleWrite op ec =>
      cases ec with
      | false => exact .handleWrite c
      | true =>
          have hended : (c.handleWrite true).stopped = true := by
            unfold TcpClientImpl.handleWrite
            split
            · assumption
            · rw [if_pos rfl, stopped_failSession]
          have hgoes : (c.handleWrite true).stopped = false := hrunning
          rw [hended] at hgoes
          cases hgoes
  | checkHeartbeat => exact .checkHeartbeat bus c
  | doReconnect => cases hopen
  | posted p =>
      cases p with
      | startWrite msg => exact .startWrite c msg
      | doClose => cases hrunning

/-! ## Handlers that read -/

structure HeaderReady (c : TcpClientImpl σ) (f : RawFrame) : Prop where
  running : c.stopped = false
  isOpen : c.io.isOpen = true
  reads : c.io.reads = []
  rbuf : c.rbuf = f.header
  head : c.readMsg.protoclHead.length = 4

structure BodyReady (c : TcpClientImpl σ) (f : RawFrame) : Prop where
  running : c.stopped = false
  isOpen : c.io.isOpen = true
  reads : c.io.reads = []
  rbuf : c.rbuf = f.header ++ f.body
  head : c.readMsg.protoclHead.length = 4
  fullMsgLen : c.readMsg.fullMsgLen = fullMsgLenOf f.header
  msgType : c.readMsg.msgType = msgTypeOf f.header

theorem handleReadHeader_ready (hc : HeaderReady c f) :
    AwaitsBody (c.handleReadHeader bus false) f ∧
      (c.handleReadHeader bus false).io.inbox = c.io.inbox ∧
      (c.handleReadHeader bus false).readMsg.body = c.readMsg.body ∧
      (c.handleReadHeader bus false).publishedBodies = c.publishedBodies := by
  let op : ReadOp := ⟨c.io.connection, 0, 16, .handleReadHeader⟩
  let before : TcpClientImpl σ := { c with
    rbuf := List.replicate 16 0
    io.reads := [op]
    io.inbox := f.header ++ c.io.inbox }
  have hawaits : AwaitsHeader before := ⟨hc.running, hc.isOpen, rfl, rfl, hc.head⟩
  have htaken : ({ before with io.reads := [] } : TcpClientImpl σ).takeInbox op = c := by
    have htake : (f.header ++ c.io.inbox).take 16 = f.header := by
      rw [← f.header_length, List.take_left]
    have hdrop : (f.header ++ c.io.inbox).drop 16 = c.io.inbox := by
      rw [← f.header_length, List.drop_left]
    have hrbuf : overwrite (List.replicate 16 0) 0 ((f.header ++ c.io.inbox).take 16) = c.rbuf := by
      rw [htake, overwrite_all (by rw [f.header_length, List.length_replicate]), hc.rbuf]
    simp only [takeInbox, before, op, hrbuf, hdrop]
    rw [← hc.reads]
  obtain ⟨after, hstep, hbody, hinbox, hlast, hpublished⟩ := readDone_header bus hawaits f rfl
  have hsingle := readDone_single bus (c := before) (show before.io.reads = [op] from rfl) rfl (by
    simp [before, op, f.header_length])
  rw [htaken] at hsingle
  obtain rfl := Option.some.inj (hstep.symm.trans hsingle)
  exact ⟨hbody, hinbox, hlast, hpublished⟩

theorem handleReadBody_ready (hc : BodyReady c f) :
    AwaitsHeader (c.handleReadBody bus false) ∧
      (c.handleReadBody bus false).io.inbox = c.io.inbox ∧
      (c.handleReadBody bus false).readMsg.body = bodyAfter c.readMsg.body f ∧
      (c.handleReadBody bus false).publishedBodies =
        c.publishedBodies ++ [(msgTypeOf f.header, bodyAfter c.readMsg.body f)] := by
  let op : ReadOp := ⟨c.io.connection, 16, f.body.length, .handleReadBody⟩
  let before : TcpClientImpl σ := { c with
    rbuf := f.header ++ List.replicate f.body.length 0
    io.reads := [op]
    io.inbox := f.body ++ c.io.inbox }
  have hawaits : AwaitsBody before f :=
    ⟨hc.running, hc.isOpen, rfl, rfl, hc.head, hc.fullMsgLen, hc.msgType⟩
  have htaken : ({ before with io.reads := [] } : TcpClientImpl σ).takeInbox op = c := by
    have hrbuf : overwrite (f.header ++ List.replicate f.body.length 0) 16
        ((f.body ++ c.io.inbox).take f.body.length) = c.rbuf := by
      rw [List.take_left, ← f.header_length, overwrite_tail List.length_replicate.symm, hc.rbuf]
    simp only [takeInbox, before, op, hrbuf, List.drop_left]
    rw [← hc.reads]
  obtain ⟨after, hstep, hheader, hinbox, hlast, hpublished⟩ := readDone_body bus hawaits rfl
  have hsingle := readDone_single bus (c := before) (show before.io.reads = [op] from rfl) rfl
    (by simp [before, op])
  rw [htaken] at hsingle
  obtain rfl := Option.some.inj (hstep.symm.trans hsingle)
  exact ⟨hheader, hinbox, hlast, hpublished⟩

/-! ## The four phases -/

/-- The client's place in a stream: `ready` are the handlers of reads that are over, `stream` is
what was not read yet, and `fs` are the frames not yet published. -/
inductive Reads (c : TcpClientImpl σ) : List Ready → Bytes → List RawFrame → Prop
  | header (fs : List RawFrame) (hc : AwaitsHeader c) : Reads c [] (fs.flatMap RawFrame.bytes) fs
  | headerReady (f : RawFrame) (fs : List RawFrame) (hc : HeaderReady c f) :
      Reads c [.handleRead ⟨c.io.connection, 0, 16, .handleReadHeader⟩ false]
        (f.body ++ fs.flatMap RawFrame.bytes) (f :: fs)
  | body (f : RawFrame) (fs : List RawFrame) (hc : AwaitsBody c f) :
      Reads c [] (f.body ++ fs.flatMap RawFrame.bytes) (f :: fs)
  | bodyReady (f : RawFrame) (fs : List RawFrame) (hc : BodyReady c f) :
      Reads c [.handleRead ⟨c.io.connection, 16, f.body.length, .handleReadBody⟩ false]
        (fs.flatMap RawFrame.bytes) (f :: fs)
  /-- A read has failed, and the session is lost when its handler runs. -/
  | failed (op : ReadOp) (stream : Bytes) (fs : List RawFrame) (hrunning : c.stopped = false)
      (hreads : c.io.reads = []) : Reads c [.handleRead op true] stream fs

namespace Reads

variable {ready : List Ready} {stream : Bytes} {fs : List RawFrame}

theorem congr (h : Reads c ready stream fs) (hstopped : c'.stopped = c.stopped)
    (hopen : c'.io.isOpen = c.io.isOpen) (hconnection : c'.io.connection = c.io.connection)
    (hreads : c'.io.reads = c.io.reads) (hrbuf : c'.rbuf = c.rbuf)
    (hreadMsg : c'.readMsg = c.readMsg) : Reads c' ready stream fs := by
  cases h with
  | header fs hc =>
      refine .header fs ⟨hstopped.trans hc.running, hopen.trans hc.isOpen, ?_, ?_, ?_⟩
      · rw [hreads, hconnection, hc.reads]
      · rw [hrbuf, hc.rbuf]
      · rw [hreadMsg, hc.head]
  | headerReady f fs hc =>
      rw [← hconnection]
      refine .headerReady f fs ⟨hstopped.trans hc.running, hopen.trans hc.isOpen,
        hreads.trans hc.reads, hrbuf.trans hc.rbuf, ?_⟩
      rw [hreadMsg, hc.head]
  | body f fs hc =>
      refine .body f fs ⟨hstopped.trans hc.running, hopen.trans hc.isOpen, ?_,
        hrbuf.trans hc.rbuf, ?_, ?_, ?_⟩
      · rw [hreads, hconnection, hc.reads]
      · rw [hreadMsg, hc.head]
      · rw [hreadMsg, hc.fullMsgLen]
      · rw [hreadMsg, hc.msgType]
  | bodyReady f fs hc =>
      rw [← hconnection]
      refine .bodyReady f fs ⟨hstopped.trans hc.running, hopen.trans hc.isOpen,
        hreads.trans hc.reads, hrbuf.trans hc.rbuf, ?_, ?_, ?_⟩
      · rw [hreadMsg, hc.head]
      · rw [hreadMsg, hc.fullMsgLen]
      · rw [hreadMsg, hc.msgType]
  | failed op stream fs hrunning hnone =>
      exact .failed op stream fs (hstopped.trans hrunning) (hreads.trans hnone)

theorem extend (h : Reads c ready stream fs) (more : List RawFrame) :
    Reads c ready (stream ++ more.flatMap RawFrame.bytes) (fs ++ more) := by
  cases h with
  | header fs hc =>
      rw [← List.flatMap_append]
      exact .header _ hc
  | headerReady f fs hc =>
      rw [List.append_assoc, ← List.flatMap_append]
      exact .headerReady f _ hc
  | body f fs hc =>
      rw [List.append_assoc, ← List.flatMap_append]
      exact .body f _ hc
  | bodyReady f fs hc =>
      rw [← List.flatMap_append]
      exact .bodyReady f _ hc
  | failed op stream fs hrunning hreads => exact .failed op _ _ hrunning hreads

theorem outstanding (h : Reads c ready stream fs) {i : Nat} {op : ReadOp}
    (hop : c.io.reads[i]? = some op) : i = 0 ∧ c.io.reads = [op] ∧ ready = [] := by
  have hsingle {first : ReadOp} (hreads : c.io.reads = [first]) : i = 0 ∧ c.io.reads = [op] := by
    rw [hreads] at hop
    cases i with
    | zero => exact ⟨rfl, by rw [hreads, Option.some.inj hop]⟩
    | succ i => cases hop
  have hnone (hreads : c.io.reads = []) : False := by
    rw [hreads] at hop
    cases hop
  cases h with
  | header fs hc =>
      obtain ⟨hi, hreads⟩ := hsingle hc.reads
      exact ⟨hi, hreads, rfl⟩
  | body f fs hc =>
      obtain ⟨hi, hreads⟩ := hsingle hc.reads
      exact ⟨hi, hreads, rfl⟩
  | headerReady f fs hc => exact absurd hc.reads hnone
  | bodyReady f fs hc => exact absurd hc.reads hnone
  | failed op stream fs hrunning hreads => exact absurd hreads hnone

theorem single {r : Ready} (h : Reads c (r :: ready) stream fs) : ready = [] := by
  cases h with
  | headerReady f fs hc => rfl
  | bodyReady f fs hc => rfl
  | failed op stream fs hrunning hreads => rfl

theorem running (h : Reads c ready stream fs) : c.stopped = false := by
  cases h with
  | header fs hc => exact hc.running
  | headerReady f fs hc => exact hc.running
  | body f fs hc => exact hc.running
  | bodyReady f fs hc => exact hc.running
  | failed op stream fs hrunning hreads => exact hrunning

/-- The read that is outstanding is over: its handler becomes ready. -/
theorem readDone {ahead : Bytes} {op : ReadOp} (h : Reads c ready (c.io.inbox ++ ahead) fs)
    (hop : c.io.reads = [op]) (hlength : op.length ≤ c.io.inbox.length) :
    Reads (({ c with io.reads := [] } : TcpClientImpl σ).takeInbox op) [.handleRead op false]
      (c.io.inbox.drop op.length ++ ahead) fs := by
  generalize hstream : c.io.inbox ++ ahead = stream at h
  cases h with
  | header fs hc =>
      obtain rfl := List.singleton_inj.mp (hc.reads.symm.trans hop)
      cases fs with
      | nil =>
          have hnil := (List.append_eq_nil_iff.mp hstream).1
          rw [hnil] at hlength
          cases hlength
      | cons f fs =>
          rw [List.flatMap_cons, RawFrame.bytes, List.append_assoc] at hstream
          obtain ⟨rest, hinbox, hrest⟩ := inbox_split hstream (by rw [f.header_length]; exact hlength)
          have htake : c.io.inbox.take 16 = f.header := by
            rw [hinbox, ← f.header_length, List.take_left]
          have hdrop : c.io.inbox.drop 16 ++ ahead = f.body ++ fs.flatMap RawFrame.bytes := by
            rw [hinbox, ← f.header_length, List.drop_left, hrest]
          rw [hdrop]
          refine .headerReady f fs ⟨hc.running, hc.isOpen, rfl, ?_, hc.head⟩
          show overwrite c.rbuf 0 (c.io.inbox.take 16) = f.header
          rw [htake, overwrite_all (by rw [f.header_length, hc.rbuf])]
  | headerReady f fs hc =>
      rw [hc.reads] at hop
      cases hop
  | body f fs hc =>
      obtain rfl := List.singleton_inj.mp (hc.reads.symm.trans hop)
      obtain ⟨rest, hinbox, hrest⟩ := inbox_split hstream hlength
      have htake : c.io.inbox.take f.body.length = f.body := by rw [hinbox, List.take_left]
      have hdrop : c.io.inbox.drop f.body.length ++ ahead = fs.flatMap RawFrame.bytes := by
        rw [hinbox, List.drop_left, hrest]
      rw [hdrop]
      refine .bodyReady f fs ⟨hc.running, hc.isOpen, rfl, ?_, hc.head, hc.fullMsgLen, hc.msgType⟩
      show overwrite c.rbuf 16 (c.io.inbox.take f.body.length) = f.header ++ f.body
      rw [htake, hc.rbuf, ← f.header_length, overwrite_tail List.length_replicate.symm]
  | bodyReady f fs hc =>
      rw [hc.reads] at hop
      cases hop
  | failed op stream fs hrunning hreads =>
      rw [hreads] at hop
      cases hop

/-- The handler of a read runs: a body is published with the frame it belongs to. -/
theorem handleRead {op : ReadOp} {ec : Bool} (h : Reads c [.handleRead op ec] stream fs)
    (hrunning : (c.handle bus (.handleRead op ec)).stopped = false) :
    ∃ read rest, fs = read ++ rest ∧
      Reads (c.handle bus (.handleRead op ec)) [] stream rest ∧
      (c.handle bus (.handleRead op ec)).io.inbox = c.io.inbox ∧
      (c.handle bus (.handleRead op ec)).publishedBodies =
        c.publishedBodies ++ publishedOf c.readMsg.body read ∧
      (c.handle bus (.handleRead op ec)).readMsg.body = read.foldl bodyAfter c.readMsg.body ∧
      (c.handle bus (.handleRead op ec)).io.connection = c.io.connection := by
  cases h with
  | headerReady f fs hc =>
      obtain ⟨hbody, hinbox, hlast, hpublished⟩ := handleReadHeader_ready bus hc
      exact ⟨[], f :: fs, rfl, .body f fs hbody, hinbox, hpublished.trans (List.append_nil _).symm,
        hlast, (Issues.handleReadHeader bus hc.running).connection⟩
  | bodyReady f fs hc =>
      obtain ⟨hheader, hinbox, hlast, hpublished⟩ := handleReadBody_ready bus hc
      exact ⟨[f], fs, rfl, .header fs hheader, hinbox, hpublished, hlast,
        (Issues.handleReadBody bus hc.running).connection⟩
  | failed op stream fs hbefore hreads =>
      have hended : (c.completeRead bus op.handler true).stopped = true := by
        unfold completeRead TcpClientImpl.handleReadHeader TcpClientImpl.handleReadBody
        rw [if_neg (by simp [hbefore]), if_pos rfl, if_neg (by simp [hbefore]), if_pos rfl]
        split
        · exact stopped_failSession c
        · exact stopped_failSession c
      have hgoes : (c.completeRead bus op.handler true).stopped = false := hrunning
      rw [hended] at hgoes
      cases hgoes

end Reads

/-! ## What happens outside of the handlers -/

theorem untouched_occurs {e : Occurrence} {ready : List Ready}
    (hoccurs : IoClient.occurs c e = some (c', ready)) (harrive : ∀ chunk, e ≠ .arrive chunk)
    (hread : ∀ i ec, e ≠ .readDone i ec) (hconnect : ∀ ec, e ≠ .connectDone ec) :
    Untouched c c' ∧ ∀ r ∈ ready, r.isRead = false := by
  cases e with
  | arrive chunk => exact absurd rfl (harrive chunk)
  | readDone i ec => exact absurd rfl (hread i ec)
  | connectDone ec => exact absurd rfl (hconnect ec)
  | tick ms =>
      obtain ⟨rfl, rfl⟩ := Prod.mk.inj (Option.some.inj hoccurs)
      exact ⟨⟨⟨rfl, rfl, rfl, rfl, rfl, rfl, rfl⟩, rfl⟩, nofun⟩
  | write msg =>
      obtain ⟨rfl, rfl⟩ := Prod.mk.inj (Option.some.inj hoccurs)
      refine ⟨?_, nofun⟩
      have hlog : Untouched c (c.log (.handed c.io.connection msg)) := .log c rfl
      unfold write
      dsimp only
      split
      · exact hlog
      · exact hlog.trans (.setSession _ _ _ _ _ _ _ _ _ _)
  | close =>
      obtain ⟨rfl, rfl⟩ := Prod.mk.inj (Option.some.inj hoccurs)
      exact ⟨.close c, nofun⟩
  | writeDone i ec =>
      simp only [IoClient.occurs] at hoccurs
      split at hoccurs
      · cases hoccurs
      · obtain ⟨-, heq⟩ := Option.ite_none_right_eq_some.mp hoccurs
        obtain ⟨rfl, rfl⟩ := Prod.mk.inj (Option.some.inj heq)
        exact ⟨.setWriter c _ _ _, by simp [Ready.isRead]⟩
  | _ =>
      simp only [IoClient.occurs] at hoccurs
      split at hoccurs
      · cases hoccurs
      · obtain ⟨-, heq⟩ := Option.ite_none_right_eq_some.mp hoccurs
        obtain ⟨rfl, rfl⟩ := Prod.mk.inj (Option.some.inj heq)
        exact ⟨.setSession c _ _ _ _ _ _ _ _ _, by simp [Ready.isRead]⟩

end TcpClientImpl

namespace IoLoop

open TcpClientImpl

variable {σ : Type} {s s' : IoLoop σ} {bus : Bus σ}

def reading (s : IoLoop σ) : List Ready := s.queue.filter Ready.isRead

def arrivedBy : Event → Bytes
  | .env (.arrive chunk) => chunk
  | _ => []

/-- The session has begun and is not over. -/
structure Lasts (s : IoLoop σ) : Prop where
  running : s.link.stopped = false
  isOpen : s.link.isOpen = true

instance (s : IoLoop σ) : Decidable (Lasts s) :=
  decidable_of_iff (s.link.stopped = false ∧ s.link.isOpen = true)
    ⟨fun h => ⟨h.1, h.2⟩, fun h => ⟨h.running, h.isOpen⟩⟩

structure ReadsOn (s s' : IoLoop σ) (ahead : Bytes) (fs read rest : List RawFrame) : Prop where
  split : fs = read ++ rest
  phase : Reads s'.state.client s'.reading (s'.state.client.io.inbox ++ ahead) rest
  published : s'.state.client.publishedBodies =
    s.state.client.publishedBodies ++ publishedOf s.state.client.readMsg.body read
  last : s'.state.client.readMsg.body = read.foldl bodyAfter s.state.client.readMsg.body
  connection : s'.state.client.io.connection = s.state.client.io.connection

theorem reading_of_progress {c : TcpClientImpl σ} {new : List Ready}
    (hqueue : s'.queue = s.queue ++ (new ++ c.io.posted.map .posted)) :
    s'.reading = s.reading ++ new.filter Ready.isRead := by
  have hposted : (c.io.posted.map Ready.posted).filter Ready.isRead = [] := by simp
  rw [reading, hqueue, List.filter_append, List.filter_append, hposted, List.append_nil, reading]

theorem readsOn_ofProgress {e : Occurrence} {ahead : Bytes} {fs : List RawFrame}
    (h : Reads s.state.client s.reading
      (s.state.client.io.inbox ++ (arrivedBy (.env e) ++ ahead)) fs)
    (hconnecting : s.connecting = 0) (hstep : step bus s (.env e) = some s') :
    ReadsOn s s' ahead fs [] fs := by
  obtain ⟨c, new, hoccurs, hclient, hqueue⟩ := client_of_progress hstep
  have hreading := reading_of_progress hqueue
  have hsame (stream : Bytes) (hphase : Reads c (s.reading ++ new.filter Ready.isRead) stream fs)
      (hstream : stream = c.io.inbox ++ ahead)
      (hpublished : c.publishedBodies = s.state.client.publishedBodies)
      (hreadMsg : c.readMsg = s.state.client.readMsg)
      (hconnection : c.io.connection = s.state.client.io.connection) :
      ReadsOn s s' ahead fs [] fs := by
    refine ⟨rfl, ?_, ?_, ?_, ?_⟩
    · rw [hreading, hclient, ← hstream]
      exact hphase.congr rfl rfl rfl rfl rfl rfl
    · rw [hclient]
      exact hpublished.trans (List.append_nil _).symm
    · rw [hclient]
      exact congrArg TcpMessage.body hreadMsg
    · rw [hclient]
      exact hconnection
  by_cases harrive : ∃ chunk, e = .arrive chunk
  · obtain ⟨chunk, rfl⟩ := harrive
    obtain ⟨-, heq⟩ := Option.ite_none_right_eq_some.mp hoccurs
    obtain ⟨rfl, rfl⟩ := Prod.mk.inj (Option.some.inj heq)
    rw [List.filter_nil, List.append_nil] at hsame
    exact hsame _ (h.congr rfl rfl rfl rfl rfl rfl) (List.append_assoc _ _ _).symm rfl rfl rfl
  have hnothing : arrivedBy (.env e) = [] := by
    cases e with
    | arrive chunk => exact absurd ⟨chunk, rfl⟩ harrive
    | _ => rfl
  rw [hnothing, List.nil_append] at h
  by_cases hconnect : ∃ ec, e = .connectDone ec
  · obtain ⟨ec, rfl⟩ := hconnect
    obtain ⟨hconnects, -⟩ := Option.ite_none_left_eq_some.mp hoccurs
    exact absurd (Nat.eq_zero_of_add_eq_zero_right hconnecting) hconnects
  by_cases hread : ∃ i ec, e = .readDone i ec
  · obtain ⟨i, ec, rfl⟩ := hread
    simp only [IoClient.occurs] at hoccurs
    split at hoccurs
    · cases hoccurs
    · rename_i op hop
      obtain ⟨rfl, hreads, hnone⟩ := h.outstanding hop
      have herased : s.state.client.io.reads.eraseIdx 0 = [] := by
        rw [hreads]
        rfl
      rw [hnone, List.nil_append] at hsame
      cases ec with
      | true =>
          obtain ⟨rfl, rfl⟩ := Prod.mk.inj (Option.some.inj hoccurs)
          exact hsame _ (.failed op _ fs h.running herased) rfl rfl rfl rfl
      | false =>
          obtain ⟨⟨hconnection, hopen, hlength⟩, heq⟩ := Option.ite_none_right_eq_some.mp hoccurs
          obtain ⟨rfl, rfl⟩ := Prod.mk.inj (Option.some.inj heq)
          have hdone := h.readDone hreads hlength
          exact hsame _ (hdone.congr rfl rfl rfl herased rfl rfl) rfl rfl rfl rfl
  · obtain ⟨huntouched, hready⟩ := untouched_occurs hoccurs (fun chunk he => harrive ⟨chunk, he⟩)
      (fun i ec he => hread ⟨i, ec, he⟩) (fun ec he => hconnect ⟨ec, he⟩)
    have hnone : new.filter Ready.isRead = [] :=
      List.filter_eq_nil_iff.mpr fun r hr => by simp [hready r hr]
    obtain ⟨hstopped, hopen, hconnection, hinbox, hreads, hrbuf, hreadMsg⟩ := huntouched.reader
    rw [hnone, List.append_nil] at hsame
    exact hsame _ (h.congr hstopped hopen hconnection hreads hrbuf hreadMsg) (by rw [hinbox])
      huntouched.published hreadMsg hconnection

theorem readsOn_ofOutcome {ahead : Bytes} {fs : List RawFrame}
    (h : Reads s.state.client s.reading (s.state.client.io.inbox ++ ahead) fs)
    (hconnecting : s.connecting = 0) (hlasts' : Lasts s') (hstep : step bus s .run = some s') :
    ∃ read rest, ReadsOn s s' ahead fs read rest := by
  obtain ⟨r, later, hqueue, hclient, hqueue', -⟩ := client_of_run hstep
  obtain ⟨hrunning, hopen⟩ := hlasts'
  rw [link, hclient] at hrunning hopen
  have hposted : ((s.state.client.handle bus r).io.posted.map Ready.posted).filter Ready.isRead =
      [] := by simp
  have hreading' : s'.reading = later.filter Ready.isRead := by
    rw [reading, hqueue', List.filter_append, hposted, List.append_nil]
  have hreading : s.reading = [r].filter Ready.isRead ++ later.filter Ready.isRead := by
    rw [reading, hqueue, ← List.filter_append]
    rfl
  have hconnect : r.isConnect = false := by
    have hnone := Nat.eq_zero_of_add_eq_zero_left hconnecting
    rw [List.countP_eq_zero, hqueue] at hnone
    simpa using hnone r List.mem_cons_self
  cases hread : r.isRead with
  | false =>
      have huntouched := untouched_handle bus hread hconnect hrunning hopen
      obtain ⟨hstopped, hopen, hconnection, hinbox, hreads, hrbuf, hreadMsg⟩ := huntouched.reader
      rw [List.filter_singleton, hread] at hreading
      refine ⟨[], fs, rfl, ?_, ?_, ?_, ?_⟩
      · rw [hreading', hclient, hinbox]
        rw [hreading] at h
        exact h.congr hstopped hopen hconnection hreads hrbuf hreadMsg
      · rw [hclient]
        exact huntouched.published.trans (List.append_nil _).symm
      · rw [hclient]
        exact congrArg TcpMessage.body hreadMsg
      · rw [hclient]
        exact hconnection
  | true =>
      cases r with
      | handleRead op ec =>
          have hone : [Ready.handleRead op ec].filter Ready.isRead = [.handleRead op ec] := rfl
          rw [hreading, hone, List.singleton_append] at h
          have hlater := h.single
          rw [hlater] at h
          obtain ⟨read, rest, hsplit, hphase, hinbox, hpublished, hlast, hconnection⟩ :=
            h.handleRead bus hrunning
          refine ⟨read, rest, hsplit, ?_, ?_, ?_, ?_⟩
          · rw [hreading', hlater, hclient, hinbox]
            exact hphase.congr rfl rfl rfl rfl rfl rfl
          · rw [hclient]
            exact hpublished
          · rw [hclient]
            exact hlast
          · rw [hclient]
            exact hconnection
      | _ => cases hread

/-- A step after which the session lasts keeps the client's place in the stream. -/
theorem readsOn_of_step {e : Event} {ahead : Bytes} {fs : List RawFrame}
    (h : Reads s.state.client s.reading (s.state.client.io.inbox ++ (arrivedBy e ++ ahead)) fs)
    (hconnecting : s.connecting = 0) (hlasts' : Lasts s') (hstep : step bus s e = some s') :
    ∃ read rest, ReadsOn s s' ahead fs read rest := by
  cases e with
  | env e => exact ⟨[], fs, readsOn_ofProgress h hconnecting hstep⟩
  | run => exact readsOn_ofOutcome h hconnecting hlasts' hstep

/-! ## The session as a whole -/

theorem Tidy.connecting (h : Tidy s) (hlasts : Lasts s) : s.connecting = 0 :=
  h.apart.running hlasts.running

theorem connects_of_lasts {r : Ready} {rest : List Ready} {posted : List Posted}
    (hturn : Turn s s' r rest posted) (houtcome : Outcome s.state.client r s'.link posted)
    (hlasts' : Lasts s') : s'.link.connects = s.link.connects := by
  obtain ⟨hrunning, hopen⟩ := hlasts'
  generalize s'.link = l at houtcome hrunning hopen
  cases houtcome with
  | connected op msgs hopen' hop => rfl
  | connectFailed ec msgs hfailed =>
      obtain ⟨_, _, _, hlost⟩ := Link.onlyReconnects_lost { s.state.client.link with isOpen := false }
      rw [hlost] at hrunning
      cases hrunning
  | ignored r hneeds hstopped => rfl
  | lost r reads msgs hbefore hlost =>
      obtain ⟨_, _, _, hlink⟩ :=
        Link.onlyReconnects_lost { s.state.client.link with reads := s.state.client.io.reads ++ reads }
      rw [hlink] at hrunning
      cases hrunning
  | heartbeatLost hbefore hmissed =>
      obtain ⟨_, _, _, hlink⟩ :=
        Link.onlyReconnects_startReconnect { s.state.client.link with closed := true }
      rw [hlink]
      rfl
  | beat msgs hbefore hmissed => rfl
  | read op next msgs hbefore hlost hnext => rfl
  | written op hbefore =>
      obtain ⟨_, _, _, hlink⟩ := Link.onlyWrites_written s.state.client.link
      rw [hlink]
      rfl
  | accepted msg hbefore =>
      obtain ⟨_, _, _, hlink⟩ := Link.onlyWrites_accept s.state.client.link msg
      rw [hlink]
      rfl
  | closed msgs => cases hrunning
  | reconnect => cases hopen

theorem Tidy.lasts {e : Event} (h : Tidy s) (hlasts : Lasts s) (hlasts' : Lasts s')
    (hstep : step bus s e = some s') : Tidy s' := by
  have hnone := h.connecting hlasts
  have hopen : ¬s.link.isOpen = false := by simp [hlasts.isOpen]
  cases e with
  | env e =>
      obtain ⟨-, hconnecting⟩ := same_of_progress hstep
      have hsingle : s'.connecting ≤ 1 := by omega
      refine h.next (e := .env e) hsingle ?_ trivial hstep
      cases e with
      | connectDone ec => exact fun hclosed => absurd hclosed hopen
      | _ => trivial
  | run =>
      obtain ⟨r, rest, posted, hturn, houtcome⟩ := outcome_of_step hstep
      have hsame := connects_of_lasts hturn houtcome hlasts'
      rw [hturn.connecting_before] at hnone
      have hsingle : s'.connecting ≤ 1 := by
        rw [hturn.connecting_after]
        omega
      have hprompt : ClosedSocketFirst s .run := fun hclosed => absurd hclosed hopen
      refine h.next hsingle hprompt ?_ hstep
      intro _ first hfirst
      rw [hturn.queue, List.head?_cons, Option.mem_some_iff] at hfirst
      obtain rfl := hfirst
      have hopen' := hlasts'.isOpen
      generalize s'.link = l at houtcome hopen'
      cases houtcome with
      | reconnect => cases hopen'
      | ignored r hneeds hstopped => exact Ready.isReconnect_of_needsSession hneeds
      | lost r reads msgs hbefore hlost =>
          exact Ready.isReconnect_of_needsSession (needsSession_of_losesSession hlost)
      | _ => rfl

/-! ## What is written meanwhile -/

structure WritesOn (s s' : IoLoop σ) (msgs : List TcpMessage) (frames : List Bytes) : Prop where
  connection : s'.link.connection = s.link.connection
  accepted : s'.state.accepted = s.state.accepted ++ msgs.map (Prod.mk s.link.connection)
  started : s'.link.started = s.link.started ++ frames.map (Prod.mk s.link.connection)

theorem acceptedBy_eq (c : TcpClientImpl σ) (r : Ready) :
    ∃ msgs : List TcpMessage, (c.acceptedBy r).toList = msgs.map (Prod.mk c.io.connection) := by
  have hnone (h : c.acceptedBy r = none) : ∃ msgs : List TcpMessage,
      (c.acceptedBy r).toList = msgs.map (Prod.mk c.io.connection) := ⟨[], by rw [h]; rfl⟩
  cases r with
  | posted p =>
      cases p with
      | startWrite msg =>
          by_cases hstopped : c.stopped = true
          · exact hnone (if_pos hstopped)
          · exact ⟨[msg], congrArg Option.toList (if_neg hstopped)⟩
      | doClose => exact hnone rfl
  | _ => exact hnone rfl

theorem writesOn_of_step {e : Event} (hconnecting : s.connecting = 0) (hlasts' : Lasts s')
    (hstep : step bus s e = some s') : ∃ msgs frames, WritesOn s s' msgs frames := by
  cases e with
  | env e =>
      obtain ⟨ready, hprogress, -, haccepted⟩ := progress_of_step hstep
      refine ⟨[], [], ?_⟩
      have hsame (hconnection : s'.link.connection = s.link.connection)
          (hstarted : s'.link.started = s.link.started) : WritesOn s s' [] [] :=
        ⟨hconnection, haccepted.trans (List.append_nil _).symm,
          hstarted.trans (List.append_nil _).symm⟩
      generalize s'.link = l at hprogress hsame
      cases hprogress with
      | connected hconnects => exact absurd (Nat.eq_zero_of_add_eq_zero_right hconnecting) hconnects.ne'
      | _ => exact hsame rfl rfl
  | run =>
      obtain ⟨r, rest, posted, hturn, houtcome⟩ := outcome_of_step hstep
      obtain ⟨msgs, hmsgs⟩ := acceptedBy_eq s.state.client r
      have haccepted := hturn.accepted
      rw [hmsgs] at haccepted
      have hwrites (frames : List Bytes) (hconnection : s'.link.connection = s.link.connection)
          (hstarted : s'.link.started =
            s.link.started ++ frames.map (Prod.mk s.link.connection)) :
          ∃ msgs frames, WritesOn s s' msgs frames :=
        ⟨msgs, frames, hconnection, haccepted, hstarted⟩
      have hquiet (hconnection : s'.link.connection = s.link.connection)
          (hstarted : s'.link.started = s.link.started) :=
        hwrites [] hconnection (hstarted.trans (List.append_nil _).symm)
      obtain ⟨hrunning, hopen⟩ := hlasts'
      generalize s'.link = l at houtcome hwrites hquiet hrunning hopen
      cases houtcome with
      | connected op msgs hopen' hop => exact hquiet rfl rfl
      | connectFailed ec msgs hfailed =>
          obtain ⟨_, _, _, hlost⟩ :=
            Link.onlyReconnects_lost { s.state.client.link with isOpen := false }
          rw [hlost] at hrunning
          cases hrunning
      | ignored r hneeds hstopped => exact hquiet rfl rfl
      | lost r reads msgs hbefore hlost =>
          obtain ⟨_, _, _, hlink⟩ := Link.onlyReconnects_lost
            { s.state.client.link with reads := s.state.client.io.reads ++ reads }
          rw [hlink] at hrunning
          cases hrunning
      | heartbeatLost hbefore hmissed =>
          obtain ⟨_, _, _, hlink⟩ :=
            Link.onlyReconnects_startReconnect { s.state.client.link with closed := true }
          rw [hlink] at hquiet
          exact hquiet rfl rfl
      | beat msgs hbefore hmissed => exact hquiet rfl rfl
      | read op next msgs hbefore hlost hnext => exact hquiet rfl rfl
      | written op hbefore =>
          unfold Link.written at hwrites hquiet
          split at hwrites
          · rename_i htail
            rw [htail] at hquiet
            exact hquiet rfl rfl
          · exact hwrites [_] rfl rfl
      | accepted msg hbefore =>
          unfold Link.accept at hwrites hquiet
          split at hwrites
          · exact hwrites [_] rfl rfl
          · rename_i hmsgs
            rw [hmsgs] at hquiet
            exact hquiet rfl rfl
      | closed msgs => cases hrunning
      | reconnect => cases hopen

end IoLoop

end CloudEdgePush.Client
