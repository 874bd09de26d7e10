import CloudEdgePush.Lib.Transition
import CloudEdgePush.Client.SysUpdateHandler
import CloudEdgePush.Client.TcpClientImpl

/-!
# `MessageHandler`

The subscriber of the message bus: login, heartbeats, file reports and update
notifications.  `bus` is its part of the client, `step` the whole client: the handlers of
the `io_context` and the report tasks of the thread pool.

`onReadBody` runs on the thread of the `io_context`, which is also the only one that calls
`SyncWaitMsg::receive`; a wait that does not find its message therefore times out, and the
time it took passes with the next tick.  The JSON trees built here can be written.
-/

namespace CloudEdgePush.Client

open CloudEdgePush.Lib CloudEdgePush.Lib.Transition

structure SyncWaitMsg where
  waitingMsg : UInt32 := 0
  ready : Bool := false
deriving DecidableEq, Repr

/-- `wait`, while nobody calls `receive`. -/
def SyncWaitMsg.wait (s : SyncWaitMsg) (msg : UInt32) : Bool × SyncWaitMsg :=
  if msg = 0 then (false, s) else (s.ready, { waitingMsg := msg, ready := false })

def SyncWaitMsg.receive (s : SyncWaitMsg) (msg : UInt32) : SyncWaitMsg :=
  if msg = s.waitingMsg then { s with ready := true } else s

/-- The members of the class, its static variables and the tasks it has in the pool. -/
structure MessageHandler where
  clientType : String
  tcpSessionStarted : Bool
  isLogin : Bool
  /-- `sent` of `onReadBody`. -/
  sent : Bool
  /-- `s_fileInfos`. -/
  fileInfos : Bytes
  syncObject : SyncWaitMsg
  sysUpdateHandler : SysUpdateHandler
  /-- The update notifications handled so far. -/
  notified : Nat
  /-- When the report tasks wake up. -/
  reports : List Nat
  /-- An exception has ended the process; no event follows. -/
  terminated : Bool

namespace MessageHandler

variable (p : Platform) (transfers : Nat → Transfer)

def start (cfg : ClientConfig) (sysUpdateHandler : SysUpdateHandler) (fileInfos : Bytes) :
    MessageHandler :=
  { clientType := cfg.clientType, tcpSessionStarted := false, isLogin := false, sent := false
    fileInfos, syncObject := {}, sysUpdateHandler, notified := 0, reports := []
    terminated := false }

def stringOf (text : Bytes) : String := String.ofList (text.map fun b => Char.ofNat b.toNat)

/-- The JSON text of a request: its name, the time and its data. -/
def encodeReq (msgType : String) (now : Nat) (data : Ptree) : Bytes :=
  let pt := (Ptree.empty.put "msg_type" msgType).put "timestamp" (toString now)
  (p.writeJson (pt.putChild "data" data)).getD []

def encodeHeartbeatReq (now : Nat) (ip : String) : Bytes :=
  encodeReq p "heart_req" now (Ptree.empty.put "ip" ip)

def encodeLoginReq (now : Nat) (ip type : String) : Bytes :=
  encodeReq p "login_req" now ((Ptree.empty.put "ip" ip).put "type" type)

def encodeSendFileInfosNtf (now : Nat) (ip fileInfos : String) : Bytes :=
  encodeReq p "file_infos_ntf" now ((Ptree.empty.put "ip" ip).put "file_infos" fileInfos)

/-- `if (_tcpSessionStarted) _tcpclient->write(msg)`. -/
def writeIfStarted (h : MessageHandler) (msgType : UInt32) (body : Bytes) : List TcpMessage :=
  if h.tcpSessionStarted then [{ msgType, body }] else []

def sendHeartbeatReq (now : Nat) (h : MessageHandler) : List TcpMessage :=
  h.writeIfStarted kHeartReq (encodeHeartbeatReq p now p.localIp)

def sendLoginReq (now : Nat) (h : MessageHandler) : MessageHandler × List TcpMessage :=
  ({ h with syncObject := (h.syncObject.wait kLoginRsp).2 },
    h.writeIfStarted kLoginReq (encodeLoginReq p now p.localIp h.clientType))

def onStart (now : Nat) (h : MessageHandler) : MessageHandler × List TcpMessage :=
  let h := { h with tcpSessionStarted := true }
  (h, h.sendHeartbeatReq p now)

def onClose (h : MessageHandler) : MessageHandler := { h with tcpSessionStarted := false }

def sendFileInfos (now : Nat) (h : MessageHandler) : List TcpMessage :=
  h.writeIfStarted kSendFileInfosNtf (encodeSendFileInfosNtf p now p.localIp (stringOf h.fileInfos))

def onRecvFileInfos (now : Nat) (h : MessageHandler) (fileInfos : Bytes) :
    MessageHandler × List TcpMessage :=
  let h := { h with fileInfos := fileInfos }
  (h, if h.fileInfos ≠ [] ∧ h.isLogin then h.sendFileInfos p now else [])

def startSendFileInfosTimer (now : Nat) (h : MessageHandler) : MessageHandler × List TcpMessage :=
  ({ h with reports := h.reports ++ [now + 60 * 1000] }, h.sendFileInfos p now)

def onHeartRsp (now : Nat) (h : MessageHandler) : MessageHandler × List TcpMessage :=
  if h.sent then (h, []) else { h with sent := true }.sendLoginReq p now

def onLoginRsp (now : Nat) (h : MessageHandler) : MessageHandler × List TcpMessage :=
  { h with syncObject := h.syncObject.receive kLoginRsp, isLogin := true }.startSendFileInfosTimer p now

def onUpdateFileNtf (now : Nat) (h : MessageHandler) (body : Bytes) :
    MessageHandler × List TcpMessage :=
  match decodeDownloadFileInfo p body with
  | none => (h, [])
  | some t =>
      match h.sysUpdateHandler.onUpdateFileNtf p t (transfers h.notified) with
      | none => ({ h with terminated := true }, [])
      | some (sysUpdateHandler, none) =>
          ({ h with sysUpdateHandler := sysUpdateHandler, notified := h.notified + 1 }, [])
      | some (sysUpdateHandler, some fileInfos) =>
          { h with
            sysUpdateHandler := sysUpdateHandler
            notified := h.notified + 1 }.onRecvFileInfos p now fileInfos

def onReadBody (now : Nat) (h : MessageHandler) (msg : TcpMessage) :
    MessageHandler × List TcpMessage :=
  if kHeartRsp = msg.msgType then h.onHeartRsp p now
  else if kLoginRsp = msg.msgType then h.onLoginRsp p now
  else if kUpdateFileNtf = msg.msgType then h.onUpdateFileNtf p transfers now msg.body
  else (h, [])

/-- What the handler does with the messages of `TcpClientImpl`; it subscribes to four. -/
def deliver (now : Nat) (msg : BusMessage) (h : MessageHandler) :
    MessageHandler × List TcpMessage :=
  match msg with
  | .kMsgStart => h.onStart p now
  | .kMsgHeartbeatReq => (h, h.sendHeartbeatReq p now)
  | .kMsgReadBody msg => h.onReadBody p transfers now msg
  | .kMsgClose => (h.onClose, [])
  | .kMsgTcpSessionError => (h, [])
  | .kMsgReadHeader _ => (h, [])

def bus : Bus MessageHandler := ⟨deliver p transfers⟩

/-! ## The client -/

inductive Event
  | io (e : TcpClientImpl.Event)
  /-- A task of the thread pool has slept long enough. -/
  | report (i : Nat)
deriving DecidableEq, Repr

def runReport (c : TcpClientImpl MessageHandler) (i : Nat) : TcpClientImpl MessageHandler :=
  let h := { c.sub with reports := c.sub.reports.eraseIdx i }
  (h.startSendFileInfosTimer p c.io.now).2.foldl TcpClientImpl.write
    { c with sub := (h.startSendFileInfosTimer p c.io.now).1 }

def step (c : TcpClientImpl MessageHandler) (e : Event) : Option (TcpClientImpl MessageHandler) :=
  if c.sub.terminated then none
  else
    match e with
    | .io e => c.step (bus p transfers) e
    | .report i =>
        match c.sub.reports[i]? with
        | none => none
        | some due => if due ≤ c.io.now then some (runReport p c i) else none

theorem step_cases {c c' : TcpClientImpl MessageHandler} {e : Event}
    (hstep : step p transfers c e = some c') :
    (∃ e', e = .io e' ∧ c.step (bus p transfers) e' = some c') ∨
      ∃ i due, e = .report i ∧ c.sub.reports[i]? = some due ∧ due ≤ c.io.now ∧
        c' = runReport p c i := by
  obtain ⟨-, hstep⟩ := Option.ite_none_left_eq_some.mp hstep
  cases e with
  | io e' => exact .inl ⟨e', rfl, hstep⟩
  | report i =>
      dsimp only at hstep
      split at hstep
      · cases hstep
      · rename_i due htask
        obtain ⟨hdue, hreport⟩ := Option.ite_none_right_eq_some.mp hstep
        exact .inr ⟨i, due, rfl, htask, hdue, (Option.some.inj hreport).symm⟩

def client (cfg : ClientConfig) (h : MessageHandler) : TcpClientImpl MessageHandler :=
  (TcpClientImpl.init cfg h).start

end MessageHandler

end CloudEdgePush.Client
