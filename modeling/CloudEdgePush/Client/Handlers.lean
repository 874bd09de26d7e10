import CloudEdgePush.Client.TcpClientImpl

/-!
# What the handlers are made of

Apart from reading and from a new connection, all handlers of `TcpClientImpl` put together
the same few actions.  A relation between states that holds for these actions (`Frame`)
therefore holds for every such handler and every such event (`Frame.step`); a property of
runs is proved with a frame of its own and the handlers that remain.
-/

namespace CloudEdgePush.Client.TcpClientImpl

open CloudEdgePush.Lib.Bytes

variable {σ : Type}

/-! ## The bus -/

theorem foldl_write (out : List TcpMessage) (c : TcpClientImpl σ) :
    out.foldl write c =
      { c with
        trace := c.trace ++ out.map (.handed c.io.connection)
        io.posted := c.io.posted ++
          if c.stopped then [] else out.map fun m => .startWrite (fillHead m) } := by
  induction out generalizing c with
  | nil => simp
  | cons m out ih =>
      rw [List.foldl_cons, ih]
      by_cases h : c.stopped = true
      · simp [write, log, h]
      · simp [write, log, post, h]

/-- The subscribers can only queue writes. -/
theorem sendMessage_eq (bus : Bus σ) (c : TcpClientImpl σ) (msg : BusMessage) :
    c.sendMessage bus msg =
      { c with
        sub := (bus.deliver c.io.now msg c.sub).1
        trace := c.trace ++ .published c.io.connection msg ::
          (bus.deliver c.io.now msg c.sub).2.map (.handed c.io.connection)
        io.posted := c.io.posted ++
          if c.stopped then []
          else (bus.deliver c.io.now msg c.sub).2.map fun m => .startWrite (fillHead m) } := by
  simp only [sendMessage, foldl_write, log, List.append_assoc, List.singleton_append]

/-! ## Frames -/

def Event.isFramed : Event → Bool
  | .readDone _ => false
  | .connected isOpen => !isOpen
  | _ => true

/-- A relation between states that all actions outside the reading cycle satisfy. -/
structure Frame (bus : Bus σ) (R : TcpClientImpl σ → TcpClientImpl σ → Prop) : Prop where
  refl : ∀ c, R c c
  trans : ∀ {c₁ c₂ c₃}, R c₁ c₂ → R c₂ c₃ → R c₁ c₃
  setIo : ∀ c io, io.connection = c.io.connection → io.reads.Sublist c.io.reads →
    R c { c with io := io }
  setWriter : ∀ c writeMsgs wbuf, R c { c with writeMsgs := writeMsgs, wbuf := wbuf }
  setSession : ∀ c closed reconnectFlag isRecved lost, R c { c with
    closed := closed, reconnectFlag := reconnectFlag, isRecvedHeartbeatRsp := isRecved
    heartBeatLostTimes := lost }
  stop : ∀ c, R c { c with stopped := true }
  logConnect : ∀ c, R c (c.log .connectIssued)
  logWrite : ∀ c connection data, R c (c.log (.writeIssued connection data))
  sendError : ∀ c, R c (c.sendMessage bus .kMsgTcpSessionError)
  sendHeartbeat : ∀ c, R c (c.sendMessage bus .kMsgHeartbeatReq)
  sendClose : ∀ c, R c { c.sendMessage bus .kMsgClose with stopped := true }

namespace Frame

variable {bus : Bus σ} {R : TcpClientImpl σ → TcpClientImpl σ → Prop}

theorem ofIo (hR : Frame bus R) {c c' : TcpClientImpl σ} {io : IoContext}
    (h : R { c with io := io } c') (hconnection : io.connection = c.io.connection)
    (hreads : io.reads.Sublist c.io.reads) : R c c' :=
  hR.trans (hR.setIo c io hconnection hreads) h

theorem asyncConnect (hR : Frame bus R) (c : TcpClientImpl σ) : R c c.asyncConnect :=
  hR.ofIo (hR.logConnect { c with io := _ }) rfl (.refl _)

theorem asyncWrite (hR : Frame bus R) (c : TcpClientImpl σ) (data : Bytes) :
    R c (c.asyncWrite data) :=
  hR.ofIo (hR.logWrite { c with io := _ } _ _) rfl (.refl _)

theorem doWrite (hR : Frame bus R) (c : TcpClientImpl σ) (msg : TcpMessage) :
    R c (c.doWrite msg) :=
  hR.trans (hR.setWriter c c.writeMsgs _) (hR.asyncWrite _ _)

theorem close (hR : Frame bus R) (c : TcpClientImpl σ) : R c c.close := by
  unfold TcpClientImpl.close
  split
  · exact hR.refl c
  · exact hR.ofIo (hR.setSession { c with io := _ } true _ _ _) rfl (.refl _)

theorem armReconnectTimer (hR : Frame bus R) (c : TcpClientImpl σ) : R c c.armReconnectTimer :=
  hR.setIo c _ rfl (.refl _)

theorem startReconnect (hR : Frame bus R) (c : TcpClientImpl σ) : R c c.startReconnect := by
  unfold TcpClientImpl.startReconnect
  dsimp only
  split
  · exact hR.trans (hR.armReconnectTimer c) (hR.setSession _ _ _ _ _)
  · split
    · exact hR.trans (hR.armReconnectTimer c) (hR.setSession _ _ _ _ _)
    · exact hR.setSession c _ _ _ _

theorem failSession (hR : Frame bus R) (c : TcpClientImpl σ) : R c c.failSession := by
  have hstop := hR.trans (hR.close c) (hR.stop _)
  unfold TcpClientImpl.failSession
  dsimp only
  split
  · exact hR.trans hstop (hR.startReconnect _)
  · exact hstop

theorem startWrite (hR : Frame bus R) (c : TcpClientImpl σ) (msg : TcpMessage) :
    R c (c.startWrite msg) := by
  have hpush := hR.setWriter c (c.writeMsgs ++ [msg]) c.wbuf
  unfold TcpClientImpl.startWrite
  dsimp only
  split
  · exact hR.refl c
  · split
    · exact hpush
    · split
      · exact hpush
      · exact hR.trans hpush (hR.doWrite _ _)

theorem handleWrite (hR : Frame bus R) (c : TcpClientImpl σ) (ec : Bool) :
    R c (c.handleWrite ec) := by
  have hpop := hR.setWriter c c.writeMsgs.tail c.wbuf
  unfold TcpClientImpl.handleWrite
  dsimp only
  split
  · exact hR.refl c
  · split
    · exact hR.failSession c
    · split
      · exact hpop
      · exact hR.trans hpop (hR.doWrite _ _)

theorem doClose (hR : Frame bus R) (c : TcpClientImpl σ) : R c (c.doClose bus) := by
  have hclear (d : TcpClientImpl σ) (io : IoContext) (hconnection : io.connection = d.io.connection)
      (hreads : io.reads.Sublist d.io.reads) :
      R d { d with io := io, writeMsgs := [], heartBeatLostTimes := 0 } :=
    hR.ofIo (hR.trans (hR.setWriter { d with io := io } [] d.wbuf)
      (hR.setSession _ d.closed d.reconnectFlag d.isRecvedHeartbeatRsp 0)) hconnection hreads
  exact hR.trans (hR.sendClose c) (hclear _ _ rfl (.refl _))

theorem setHeartbeatTimer (hR : Frame bus R) (c : TcpClientImpl σ) (expiry : Option Nat) :
    R c (c.setHeartbeatTimer expiry) := hR.setIo c _ rfl (.refl _)

theorem restartHeartbeatTimer (hR : Frame bus R) (c : TcpClientImpl σ) :
    R c c.restartHeartbeatTimer := hR.setHeartbeatTimer c _

theorem waitHeartbeatTimer (hR : Frame bus R) (c : TcpClientImpl σ) :
    R c c.waitHeartbeatTimer := hR.setIo c _ rfl (.refl _)

theorem heartbeatTick (hR : Frame bus R) (c : TcpClientImpl σ) : R c (c.heartbeatTick bus) := by
  unfold TcpClientImpl.heartbeatTick
  split
  · exact hR.trans (hR.sendHeartbeat c) (hR.setSession _ _ _ _ _)
  · split
    · exact hR.trans (hR.trans (hR.close c) (hR.setHeartbeatTimer _ _)) (hR.startReconnect _)
    · exact hR.trans (hR.setSession c _ _ _ _) (hR.sendHeartbeat _)

theorem checkHeartbeat (hR : Frame bus R) (c : TcpClientImpl σ) :
    R c (c.checkHeartbeat bus) := by
  unfold TcpClientImpl.checkHeartbeat
  split
  · exact hR.refl c
  · split
    · exact hR.trans (hR.trans (hR.heartbeatTick c) (hR.restartHeartbeatTimer _))
        (hR.waitHeartbeatTimer _)
    · exact hR.waitHeartbeatTimer c

theorem handleConnectError (hR : Frame bus R) (c : TcpClientImpl σ) :
    R c (c.handleConnectError bus) := by
  unfold TcpClientImpl.handleConnectError
  dsimp only
  split
  · exact hR.trans (hR.trans (hR.stop c) (hR.close _)) (hR.sendError _)
  · exact hR.trans (hR.trans (hR.stop c) (hR.close _)) (hR.startReconnect _)

theorem handleConnect_failed (hR : Frame bus R) (c : TcpClientImpl σ) {ec : Bool}
    (h : ec = true ∨ c.io.isOpen = false) : R c (c.handleConnect bus ec) := by
  unfold TcpClientImpl.handleConnect
  by_cases hec : ec = true
  · rw [if_pos hec]
    exact hR.ofIo (hR.handleConnectError _) rfl (.refl _)
  · have hclosed : c.io.isOpen = false := h.resolve_left hec
    rw [if_neg hec, if_pos (by simp [hclosed])]
    exact hR.handleConnectError c

theorem noteHeartbeatRsp (hR : Frame bus R) (c : TcpClientImpl σ) (msg : TcpMessage) :
    R c (c.noteHeartbeatRsp msg) := by
  unfold TcpClientImpl.noteHeartbeatRsp
  split
  · exact hR.setSession c _ _ true _
  · exact hR.refl c

theorem completeRead_failed (hR : Frame bus R) (c : TcpClientImpl σ) (handler : ReadHandler) :
    R c (c.completeRead bus handler true) := by
  cases handler with
  | handleReadHeader =>
      simp only [completeRead, handleReadHeader]
      split
      · exact hR.refl c
      · exact hR.failSession c
  | handleReadBody =>
      simp only [completeRead, handleReadBody]
      split
      · exact hR.refl c
      · exact hR.failSession c

theorem handleReadHeader (hR : Frame bus R) (hrest : ∀ c msg, R c (c.readRest msg))
    (hsend : ∀ c msg, R c (c.sendMessage bus (.kMsgReadHeader msg))) (c : TcpClientImpl σ) :
    R c (c.handleReadHeader bus false) := by
  unfold TcpClientImpl.handleReadHeader
  by_cases hstopped : c.stopped = true
  · rw [if_pos hstopped]
    exact hR.refl c
  · rw [if_neg hstopped, if_neg (by decide)]
    generalize retrieveHeader c.rbuf c.readMsg = result
    obtain ⟨msg, headerError⟩ := result
    have hnoted := hR.trans (hrest c msg) (hR.noteHeartbeatRsp _ msg)
    have hsent := hR.trans hnoted (hsend _ msg)
    cases headerError with
    | false => exact hsent
    | true => exact hR.trans hsent (hR.failSession _)

theorem handleConnect_opened (hR : Frame bus R) (hstart : ∀ c, R c
      ({ c with stopped := false, closed := false, reconnectFlag := 0 }.sendMessage bus .kMsgStart))
    (hread : ∀ c, R c (startRead c)) {c : TcpClientImpl σ} (hopen : c.io.isOpen = true) :
    R c (c.handleConnect bus false) := by
  have hreading := hR.trans (hstart c) (hread _)
  have htimer := hR.trans (hR.trans hreading (hR.restartHeartbeatTimer _)) (hR.waitHeartbeatTimer _)
  unfold TcpClientImpl.handleConnect
  rw [if_neg (by decide), if_neg (by simp [hopen])]
  exact hR.trans htimer (hR.setSession _ _ _ false _)

/-- Every event that neither reads nor opens a connection satisfies the frame. -/
theorem step (hR : Frame bus R) {c c' : TcpClientImpl σ} {e : Event} (he : e.isFramed = true)
    (hstep : step bus c e = some c') : R c c' := by
  cases handled_of_step hstep with
  | readDone i op hop hconnection hlength => cases he
  | opened hconnects => cases he
  | refused hconnects => exact hR.ofIo (hR.handleConnect_failed _ (.inr rfl)) rfl (.refl _)
  | connectFailed hconnects => exact hR.ofIo (hR.handleConnect_failed _ (.inl rfl)) rfl (.refl _)
  | readFailed i op hop =>
      exact hR.ofIo (hR.completeRead_failed _ _) rfl (List.eraseIdx_sublist _ _)
  | tick ms => exact hR.setIo c _ rfl (.refl _)
  | arrive chunk hopen => exact hR.setIo c _ rfl (.refl _)
  | writeDone i hi => exact hR.ofIo (hR.handleWrite _ _) rfl (.refl _)
  | writeFailed i hi => exact hR.ofIo (hR.handleWrite _ _) rfl (.refl _)
  | heartbeatDue i aborted hwait hdue => exact hR.ofIo (hR.checkHeartbeat _) rfl (.refl _)
  | reconnectDue i aborted hwait hdue => exact hR.ofIo (hR.asyncConnect _) rfl (.refl _)
  | startWrite msg rest hposted => exact hR.ofIo (hR.startWrite _ _) rfl (.refl _)
  | doClose rest hposted => exact hR.ofIo (hR.doClose _) rfl (.refl _)

end Frame

inductive ReaderStep (bus : Bus σ) (c : TcpClientImpl σ) : Event → TcpClientImpl σ → Prop
  | framed {e : Event} {c' : TcpClientImpl σ} (he : e.isFramed = true) : ReaderStep bus c e c'
  | readDone (i : Nat) (op : ReadOp) (hop : c.io.reads[i]? = some op)
      (hconnection : op.connection = c.io.connection) (hlength : op.length ≤ c.io.inbox.length) :
      ReaderStep bus c (.readDone i)
        (({ c with io.reads := c.io.reads.eraseIdx i }.takeInbox op).completeRead bus op.handler
          false)
  | opened (hconnects : c.io.connects ≠ 0) :
      ReaderStep bus c (.connected true)
        ({ c with io.connects := c.io.connects - 1 }.establish.handleConnect bus false)

theorem readerStep_of_step {bus : Bus σ} {c c' : TcpClientImpl σ} {e : Event}
    (hstep : step bus c e = some c') : ReaderStep bus c e c' := by
  cases handled_of_step hstep with
  | readDone i op hop hconnection hlength => exact .readDone i op hop hconnection hlength
  | opened hconnects => exact .opened hconnects
  | _ => exact .framed rfl

end CloudEdgePush.Client.TcpClientImpl
