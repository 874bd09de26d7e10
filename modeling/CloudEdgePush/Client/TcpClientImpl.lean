import CloudEdgePush.Client.TcpMessage

/-!
# `TcpClientImpl`

The connection of the edge client: the handlers of `tcpclient_impl.cpp` as functions on
one state.  The state holds the members of the class, the part of asio that the class
uses (`IoContext`), the subscribers of the message bus and a trace of what the handlers
did.

One event runs one handler.  An operation that was started stays outstanding until an
event completes it, with success or with an error, in any order; posted handlers run in
the order in which they were posted.  Two operations of one kind are told apart by their
index.  A timer wait is due when the timer's expiry is reached or after the timer was set
again, which in asio completes the wait with `operation_aborted`; the handlers of both
timers ignore that code.
-/

namespace CloudEdgePush.Client

open CloudEdgePush.Lib.Bytes

inductive BusMessage
  | kMsgStart
  | kMsgTcpSessionError
  | kMsgClose
  | kMsgHeartbeatReq
  | kMsgReadHeader (msg : TcpMessage)
  | kMsgReadBody (msg : TcpMessage)
deriving DecidableEq, Repr

/-- The subscribers of the bus.  A message is delivered at a time (in ms) by a synchronous
call; the result is the subscribers' state and the messages that they hand to
`TcpClient::write` meanwhile, the only member of the client they call. -/
structure Bus (σ : Type) where
  deliver : Nat → BusMessage → σ → σ × List TcpMessage

inductive ReadHandler
  | handleReadHeader
  | handleReadBody
deriving DecidableEq, Repr

/-- An `async_read` into `_rbuf` that is outstanding on some connection. -/
structure ReadOp where
  connection : Nat
  offset : Nat
  length : Nat
  handler : ReadHandler
deriving DecidableEq, Repr

structure WriteOp where
  connection : Nat
  data : Bytes
deriving DecidableEq, Repr

inductive Posted
  | startWrite (msg : TcpMessage)
  | doClose
deriving DecidableEq, Repr

structure IoContext where
  /-- Time in ms. -/
  now : Nat
  /-- Number of connections established so far; the last one is the current one. -/
  connection : Nat
  isOpen : Bool
  /-- Bytes received on the current connection and not yet read. -/
  inbox : Bytes
  connects : Nat
  reads : List ReadOp
  writes : List WriteOp
  /-- `none` is `pos_infin`. -/
  heartbeatExpiry : Option Nat
  /-- One entry a wait: whether the timer was set again since. -/
  heartbeatWaits : List Bool
  reconnectExpiry : Nat
  reconnectWaits : List Bool
  posted : List Posted
deriving DecidableEq, Repr

inductive Trace
  | connectIssued
  | readIssued (offset length bufferSize : Nat)
  | writeIssued (connection : Nat) (data : Bytes)
  | published (connection : Nat) (msg : BusMessage)
  | handed (connection : Nat) (msg : TcpMessage)
deriving DecidableEq, Repr

structure TcpClientImpl (σ : Type) where
  clientConfig : ClientConfig
  stopped : Bool
  closed : Bool
  reconnectFlag : Nat
  readMsg : TcpMessage
  writeMsgs : List TcpMessage
  isRecvedHeartbeatRsp : Bool
  heartBeatLostTimes : Nat
  rbuf : Bytes
  wbuf : Bytes
  io : IoContext
  sub : σ
  trace : List Trace
deriving DecidableEq

namespace TcpClientImpl

variable {σ : Type}

/-! ## Operations of asio -/

def log (c : TcpClientImpl σ) (t : Trace) : TcpClientImpl σ := { c with trace := c.trace ++ [t] }

def post (c : TcpClientImpl σ) (p : Posted) : TcpClientImpl σ :=
  { c with io.posted := c.io.posted ++ [p] }

/-- asio's connect over a range of endpoints closes the socket before each attempt. -/
def asyncConnect (c : TcpClientImpl σ) : TcpClientImpl σ :=
  { c with io.connects := c.io.connects + 1, io.isOpen := false }.log .connectIssued

def asyncRead (c : TcpClientImpl σ) (offset length : Nat) (handler : ReadHandler) :
    TcpClientImpl σ :=
  let op : ReadOp := { connection := c.io.connection, offset, length, handler }
  { c with io.reads := c.io.reads ++ [op] }.log (.readIssued offset length c.rbuf.length)

def asyncWrite (c : TcpClientImpl σ) (data : Bytes) : TcpClientImpl σ :=
  let op : WriteOp := { connection := c.io.connection, data }
  { c with io.writes := c.io.writes ++ [op] }.log (.writeIssued op.connection data)

/-- Set the expiry of `_heartbeatTimer`, which cancels its waits. -/
def setHeartbeatTimer (c : TcpClientImpl σ) (expiry : Option Nat) : TcpClientImpl σ :=
  { c with
    io.heartbeatExpiry := expiry
    io.heartbeatWaits := c.io.heartbeatWaits.map fun _ => true }

def restartHeartbeatTimer (c : TcpClientImpl σ) : TcpClientImpl σ :=
  c.setHeartbeatTimer (some (c.io.now + 1000 * c.clientConfig.heartbeatInterval))

def waitHeartbeatTimer (c : TcpClientImpl σ) : TcpClientImpl σ :=
  { c with io.heartbeatWaits := c.io.heartbeatWaits ++ [false] }

def armReconnectTimer (c : TcpClientImpl σ) : TcpClientImpl σ :=
  { c with
    io.reconnectExpiry := c.io.now + 1000 * c.clientConfig.reconnectInterval
    io.reconnectWaits := (c.io.reconnectWaits.map fun _ => true) ++ [false] }

/-! ## Writing -/

def fillHead (msg : TcpMessage) : TcpMessage :=
  let bodyLen := UInt32.ofNat msg.body.length
  { msg with protoclHead := kProtoclHead, bodyLen := bodyLen, fullMsgLen := kTotalHeadLen + bodyLen }

def write (c : TcpClientImpl σ) (msg : TcpMessage) : TcpClientImpl σ :=
  let c := c.log (.handed c.io.connection msg)
  if c.stopped then c else c.post (.startWrite (fillHead msg))

def sendMessage (bus : Bus σ) (c : TcpClientImpl σ) (msg : BusMessage) : TcpClientImpl σ :=
  let (sub, out) := bus.deliver c.io.now msg c.sub
  out.foldl write ({ c with sub := sub }.log (.published c.io.connection msg))

def writeBuffer (msg : TcpMessage) : Bytes :=
  let buf := BytesBuffer.empty.append msg.protoclHead
  let buf := buf.append (wordBytes msg.fullMsgLen)
  let buf := buf.append (wordBytes msg.msgType)
  let buf := buf.append (wordBytes msg.bodyLen)
  let buf := buf.append msg.body
  overwrite (resize [] msg.fullMsgLen.toNat 0) 0 (buf.buffer.take buf.readableBytes.toNat)

def doWrite (c : TcpClientImpl σ) (msg : TcpMessage) : TcpClientImpl σ :=
  { c with wbuf := writeBuffer msg }.asyncWrite (writeBuffer msg)

def startWrite (c : TcpClientImpl σ) (msg : TcpMessage) : TcpClientImpl σ :=
  if c.stopped then c
  else
    let writeInProgress := !c.writeMsgs.isEmpty
    let c := { c with writeMsgs := c.writeMsgs ++ [msg] }
    if writeInProgress then c
    else match c.writeMsgs with
      | [] => c
      | front :: _ => c.doWrite front

/-! ## Closing and reconnecting -/

def close (c : TcpClientImpl σ) : TcpClientImpl σ :=
  if c.closed then c else { c.post .doClose with closed := true }

def startReconnect (c : TcpClientImpl σ) : TcpClientImpl σ :=
  let c :=
    if c.reconnectFlag = 0 then c.armReconnectTimer
    else if c.io.reconnectExpiry ≤ c.io.now then c.armReconnectTimer
    else c
  { c with reconnectFlag := c.reconnectFlag + 1 }

/-- The end of the read and write handlers after an error. -/
def failSession (c : TcpClientImpl σ) : TcpClientImpl σ :=
  let c := { c.close with stopped := true }
  if c.clientConfig.isReconnect then c.startReconnect else c

def handleWrite (c : TcpClientImpl σ) (ec : Bool) : TcpClientImpl σ :=
  if c.stopped then c
  else if ec then c.failSession
  else
    let c := { c with writeMsgs := c.writeMsgs.tail }
    match c.writeMsgs with
    | [] => c
    | front :: _ => c.doWrite front

def doClose (bus : Bus σ) (c : TcpClientImpl σ) : TcpClientImpl σ :=
  let c := c.sendMessage bus .kMsgClose
  { c with
    stopped := true
    io.isOpen := false
    writeMsgs := []
    heartBeatLostTimes := 0
    io.heartbeatWaits := c.io.heartbeatWaits.map fun _ => true }

def doReconnect (c : TcpClientImpl σ) : TcpClientImpl σ := c.asyncConnect

/-! ## Reading -/

def startRead (c : TcpClientImpl σ) : TcpClientImpl σ :=
  { c with rbuf := resize [] kTotalHeadLen.toNat 0 }.asyncRead 0 kTotalHeadLen.toNat
    .handleReadHeader

def retrieveHeader (rbuf : Bytes) (msg : TcpMessage) : TcpMessage × Bool :=
  let buf := BytesBuffer.empty.append rbuf
  let (head, buf) := buf.retrieveInto kIntLen
  let msg := { msg with protoclHead := overwrite msg.protoclHead 0 head }
  let headerError := decide (kProtoclHead ≠ msg.protoclHead)
  let (len, buf) := buf.retrieveInto kIntLen
  let msg := { msg with fullMsgLen := storeWord msg.fullMsgLen len }
  let headerError := headerError || decide (kMaxMessageSize < msg.fullMsgLen)
  let (typ, _) := buf.retrieveInto 4
  ({ msg with msgType := storeWord msg.msgType typ }, headerError)

/-- `_rbuf` is resized to the announced length and the rest of the frame is requested;
the length is a `uint32_t` subtraction. -/
def readRest (c : TcpClientImpl σ) (msg : TcpMessage) : TcpClientImpl σ :=
  { c with readMsg := msg, rbuf := resize c.rbuf msg.fullMsgLen.toNat 0 }.asyncRead
    kTotalHeadLen.toNat (msg.fullMsgLen - kTotalHeadLen).toNat .handleReadBody

def noteHeartbeatRsp (c : TcpClientImpl σ) (msg : TcpMessage) : TcpClientImpl σ :=
  if kHeartRsp = msg.msgType then { c with isRecvedHeartbeatRsp := true } else c

def handleReadHeader (bus : Bus σ) (c : TcpClientImpl σ) (ec : Bool) : TcpClientImpl σ :=
  if c.stopped then c
  else if ec then c.failSession
  else
    let (msg, headerError) := retrieveHeader c.rbuf c.readMsg
    let c := ((c.readRest msg).noteHeartbeatRsp msg).sendMessage bus (.kMsgReadHeader msg)
    if headerError then c.failSession else c

def retrieveBody (rbuf : Bytes) (msg : TcpMessage) : TcpMessage :=
  let bodyLen := msg.fullMsgLen - kTotalHeadLen
  let buf := BytesBuffer.empty.append ((rbuf.drop kTotalHeadLen.toNat).take bodyLen.toNat)
  let msg := { msg with bodyLen := bodyLen }
  if msg.bodyLen > 0 then { msg with body := (buf.retrieveAsString msg.bodyLen.toNat).1 } else msg

def handleReadBody (bus : Bus σ) (c : TcpClientImpl σ) (ec : Bool) : TcpClientImpl σ :=
  if c.stopped then c
  else if ec then c.failSession
  else
    let c := { c with readMsg := retrieveBody c.rbuf c.readMsg }
    let c := c.sendMessage bus (.kMsgReadBody c.readMsg)
    c.startRead

/-! ## Connecting and the heartbeat -/

def handleConnectError (bus : Bus σ) (c : TcpClientImpl σ) : TcpClientImpl σ :=
  let c := { c with stopped := true }
  if !c.clientConfig.isReconnect then c.close.sendMessage bus .kMsgTcpSessionError
  else c.close.startReconnect

def handleConnect (bus : Bus σ) (c : TcpClientImpl σ) (ec : Bool) : TcpClientImpl σ :=
  if ec then { c with io.isOpen := false }.handleConnectError bus
  else if !c.io.isOpen then c.handleConnectError bus
  else
    let c := { c with stopped := false, closed := false, reconnectFlag := 0 }
    let c := c.sendMessage bus .kMsgStart
    let c := c.startRead
    let c := c.restartHeartbeatTimer.waitHeartbeatTimer
    { c with isRecvedHeartbeatRsp := false }

def heartbeatExpired (c : TcpClientImpl σ) : Bool :=
  match c.io.heartbeatExpiry with
  | none => false
  | some expiry => decide (expiry ≤ c.io.now)

def heartbeatTick (bus : Bus σ) (c : TcpClientImpl σ) : TcpClientImpl σ :=
  if c.isRecvedHeartbeatRsp then
    let c := c.sendMessage bus .kMsgHeartbeatReq
    { c with isRecvedHeartbeatRsp := false, heartBeatLostTimes := 0 }
  else if c.heartBeatLostTimes ≥ 3 then (c.close.setHeartbeatTimer none).startReconnect
  else
    let c := { c with heartBeatLostTimes := c.heartBeatLostTimes + 1 }
    c.sendMessage bus .kMsgHeartbeatReq

def checkHeartbeat (bus : Bus σ) (c : TcpClientImpl σ) : TcpClientImpl σ :=
  if c.stopped then c
  else if c.heartbeatExpired then (c.heartbeatTick bus).restartHeartbeatTimer.waitHeartbeatTimer
  else c.waitHeartbeatTimer

/-! ## The machine -/

def init (cfg : ClientConfig) (sub : σ) : TcpClientImpl σ where
  clientConfig := cfg
  stopped := true
  closed := false
  reconnectFlag := 0
  readMsg := {}
  writeMsgs := []
  isRecvedHeartbeatRsp := false
  heartBeatLostTimes := 0
  rbuf := []
  wbuf := []
  io :=
    { now := 0, connection := 0, isOpen := false, inbox := [], connects := 0, reads := []
      writes := [], heartbeatExpiry := none, heartbeatWaits := [], reconnectExpiry := 0
      reconnectWaits := [], posted := [] }
  sub := sub
  trace := []

def start (c : TcpClientImpl σ) : TcpClientImpl σ := c.asyncConnect

inductive Event
  | tick (ms : Nat)
  | arrive (chunk : Bytes)
  /-- The connect succeeded; `isOpen` is whether the socket is still open. -/
  | connected (isOpen : Bool)
  | connectFailed
  | readDone (i : Nat)
  | readFailed (i : Nat)
  | writeDone (i : Nat)
  | writeFailed (i : Nat)
  | heartbeatDue (i : Nat)
  | reconnectDue (i : Nat)
  | runPosted
deriving DecidableEq, Repr

def completeRead (bus : Bus σ) (c : TcpClientImpl σ) (handler : ReadHandler) (ec : Bool) :
    TcpClientImpl σ :=
  match handler with
  | .handleReadHeader => c.handleReadHeader bus ec
  | .handleReadBody => c.handleReadBody bus ec

/-- A new connection is established: earlier bytes are gone. -/
def establish (c : TcpClientImpl σ) : TcpClientImpl σ :=
  { c with io.connection := c.io.connection + 1, io.isOpen := true, io.inbox := [] }

def takeInbox (c : TcpClientImpl σ) (op : ReadOp) : TcpClientImpl σ :=
  { c with
    rbuf := overwrite c.rbuf op.offset (c.io.inbox.take op.length)
    io.inbox := c.io.inbox.drop op.length }

def step (bus : Bus σ) (c : TcpClientImpl σ) : Event → Option (TcpClientImpl σ)
  | .tick ms => some { c with io.now := c.io.now + ms }
  | .arrive chunk =>
      if c.io.isOpen then some { c with io.inbox := c.io.inbox ++ chunk } else none
  | .connected isOpen =>
      if c.io.connects = 0 then none
      else
        let c := { c with io.connects := c.io.connects - 1 }
        let c := if isOpen then c.establish else { c with io.isOpen := false }
        some (c.handleConnect bus false)
  | .connectFailed =>
      if c.io.connects = 0 then none
      else some ({ c with io.connects := c.io.connects - 1 }.handleConnect bus true)
  | .readDone i =>
      match c.io.reads[i]? with
      | none => none
      | some op =>
          if op.connection = c.io.connection ∧ op.length ≤ c.io.inbox.length then
            let c := { c with io.reads := c.io.reads.eraseIdx i }
            some ((c.takeInbox op).completeRead bus op.handler false)
          else none
  | .readFailed i =>
      match c.io.reads[i]? with
      | none => none
      | some op =>
          let c := { c with io.reads := c.io.reads.eraseIdx i }
          some (c.completeRead bus op.handler true)
  | .writeDone i =>
      if i < c.io.writes.length then
        some ({ c with io.writes := c.io.writes.eraseIdx i }.handleWrite false)
      else none
  | .writeFailed i =>
      if i < c.io.writes.length then
        some ({ c with io.writes := c.io.writes.eraseIdx i }.handleWrite true)
      else none
  | .heartbeatDue i =>
      match c.io.heartbeatWaits[i]? with
      | none => none
      | some aborted =>
          if aborted ∨ (∃ expiry ∈ c.io.heartbeatExpiry, expiry ≤ c.io.now) then
            let c := { c with io.heartbeatWaits := c.io.heartbeatWaits.eraseIdx i }
            some (c.checkHeartbeat bus)
          else none
  | .reconnectDue i =>
      match c.io.reconnectWaits[i]? with
      | none => none
      | some aborted =>
          if aborted ∨ c.io.reconnectExpiry ≤ c.io.now then
            let c := { c with io.reconnectWaits := c.io.reconnectWaits.eraseIdx i }
            some c.doReconnect
          else none
  | .runPosted =>
      match c.io.posted with
      | [] => none
      | p :: rest =>
          let c := { c with io.posted := rest }
          match p with
          | .startWrite msg => some (c.startWrite msg)
          | .doClose => some (c.doClose bus)

inductive Handled (bus : Bus σ) (c : TcpClientImpl σ) : Event → TcpClientImpl σ → Prop
  | tick (ms : Nat) : Handled bus c (.tick ms) { c with io.now := c.io.now + ms }
  | arrive (chunk : Bytes) (hopen : c.io.isOpen = true) :
      Handled bus c (.arrive chunk) { c with io.inbox := c.io.inbox ++ chunk }
  | opened (hconnects : c.io.connects ≠ 0) :
      Handled bus c (.connected true)
        ({ c with io.connects := c.io.connects - 1 }.establish.handleConnect bus false)
  | refused (hconnects : c.io.connects ≠ 0) :
      Handled bus c (.connected false)
        ({ c with io.connects := c.io.connects - 1, io.isOpen := false }.handleConnect bus false)
  | connectFailed (hconnects : c.io.connects ≠ 0) :
      Handled bus c .connectFailed
        ({ c with io.connects := c.io.connects - 1 }.handleConnect bus true)
  | readDone (i : Nat) (op : ReadOp) (hop : c.io.reads[i]? = some op)
      (hconnection : op.connection = c.io.connection) (hlength : op.length ≤ c.io.inbox.length) :
      Handled bus c (.readDone i)
        (({ c with io.reads := c.io.reads.eraseIdx i }.takeInbox op).completeRead bus op.handler
          false)
  | readFailed (i : Nat) (op : ReadOp) (hop : c.io.reads[i]? = some op) :
      Handled bus c (.readFailed i)
        ({ c with io.reads := c.io.reads.eraseIdx i }.completeRead bus op.handler true)
  | writeDone (i : Nat) (hi : i < c.io.writes.length) :
      Handled bus c (.writeDone i)
        ({ c with io.writes := c.io.writes.eraseIdx i }.handleWrite false)
  | writeFailed (i : Nat) (hi : i < c.io.writes.length) :
      Handled bus c (.writeFailed i)
        ({ c with io.writes := c.io.writes.eraseIdx i }.handleWrite true)
  | heartbeatDue (i : Nat) (aborted : Bool) (hwait : c.io.heartbeatWaits[i]? = some aborted)
      (hdue : aborted = true ∨ ∃ expiry ∈ c.io.heartbeatExpiry, expiry ≤ c.io.now) :
      Handled bus c (.heartbeatDue i)
        ({ c with io.heartbeatWaits := c.io.heartbeatWaits.eraseIdx i }.checkHeartbeat bus)
  | reconnectDue (i : Nat) (aborted : Bool) (hwait : c.io.reconnectWaits[i]? = some aborted)
      (hdue : aborted = true ∨ c.io.reconnectExpiry ≤ c.io.now) :
      Handled bus c (.reconnectDue i)
        { c with io.reconnectWaits := c.io.reconnectWaits.eraseIdx i }.doReconnect
  | startWrite (msg : TcpMessage) (rest : List Posted)
      (hposted : c.io.posted = .startWrite msg :: rest) :
      Handled bus c .runPosted ({ c with io.posted := rest }.startWrite msg)
  | doClose (rest : List Posted) (hposted : c.io.posted = .doClose :: rest) :
      Handled bus c .runPosted ({ c with io.posted := rest }.doClose bus)

theorem handled_of_step {bus : Bus σ} {c c' : TcpClientImpl σ} {e : Event}
    (hstep : step bus c e = some c') : Handled bus c e c' := by
  cases e with
  | tick ms =>
      obtain rfl := Option.some.inj hstep
      exact .tick ms
  | arrive chunk =>
      obtain ⟨hopen, heq⟩ := Option.ite_none_right_eq_some.mp hstep
      obtain rfl := Option.some.inj heq
      exact .arrive chunk hopen
  | connected isOpen =>
      obtain ⟨hconnects, heq⟩ := Option.ite_none_left_eq_some.mp hstep
      obtain rfl := Option.some.inj heq
      cases isOpen with
      | true => exact .opened hconnects
      | false => exact .refused hconnects
  | connectFailed =>
      obtain ⟨hconnects, heq⟩ := Option.ite_none_left_eq_some.mp hstep
      obtain rfl := Option.some.inj heq
      exact .connectFailed hconnects
  | readDone i =>
      simp only [step] at hstep
      split at hstep
      · cases hstep
      · rename_i op hop
        obtain ⟨⟨hconnection, hlength⟩, heq⟩ := Option.ite_none_right_eq_some.mp hstep
        obtain rfl := Option.some.inj heq
        exact .readDone i op hop hconnection hlength
  | readFailed i =>
      simp only [step] at hstep
      split at hstep
      · cases hstep
      · rename_i op hop
        obtain rfl := Option.some.inj hstep
        exact .readFailed i op hop
  | writeDone i =>
      obtain ⟨hi, heq⟩ := Option.ite_none_right_eq_some.mp hstep
      obtain rfl := Option.some.inj heq
      exact .writeDone i hi
  | writeFailed i =>
      obtain ⟨hi, heq⟩ := Option.ite_none_right_eq_some.mp hstep
      obtain rfl := Option.some.inj heq
      exact .writeFailed i hi
  | heartbeatDue i =>
      simp only [step] at hstep
      split at hstep
      · cases hstep
      · rename_i aborted hwait
        obtain ⟨hdue, heq⟩ := Option.ite_none_right_eq_some.mp hstep
        obtain rfl := Option.some.inj heq
        exact .heartbeatDue i aborted hwait hdue
  | reconnectDue i =>
      simp only [step] at hstep
      split at hstep
      · cases hstep
      · rename_i aborted hwait
        obtain ⟨hdue, heq⟩ := Option.ite_none_right_eq_some.mp hstep
        obtain rfl := Option.some.inj heq
        exact .reconnectDue i aborted hwait hdue
  | runPosted =>
      simp only [step] at hstep
      split at hstep
      · cases hstep
      · rename_i p rest hposted
        cases p with
        | startWrite msg =>
            obtain rfl := Option.some.inj hstep
            exact .startWrite msg rest hposted
        | doClose =>
            obtain rfl := Option.some.inj hstep
            exact .doClose rest hposted

/-! ## A client on its own -/

def idleBus : Bus Unit := ⟨fun _ _ s => (s, [])⟩

def sampleConfig : ClientConfig :=
  { isReconnect := true, reconnectInterval := 5, heartbeatInterval := 10
    httpServer := "http://127.0.0.1:8010", clientType := "edge" }

def sampleClient : TcpClientImpl Unit :=
  (init sampleConfig ()).start.establish.handleConnect idleBus false

end TcpClientImpl

end CloudEdgePush.Client
