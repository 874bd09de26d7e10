import CloudEdgePush.Client.Handlers
import CloudEdgePush.Client.MessageHandler

/-!
# One login for all connections

`onReadBody` sends the login request on the first heart_rsp of the process.  `LoginInv`
says what that means for a run: no login before the first heart_rsp, and from then on
exactly one, on the connection of that first heart_rsp.
-/

namespace CloudEdgePush.Client

open CloudEdgePush.Lib CloudEdgePush.Lib.Transition

def Trace.heartRsp : Trace → Option Nat
  | .published connection (.kMsgReadBody msg) =>
      if msg.msgType = kHeartRsp then some connection else none
  | _ => none

def Trace.loginReq : Trace → Option Nat
  | .handed connection msg => if msg.msgType = kLoginReq then some connection else none
  | _ => none

namespace MessageHandler

open TcpClientImpl (asyncRead readRest startRead sendMessage sendMessage_eq Frame foldl_write
  establish takeInbox)

def heartRspConnections (c : TcpClientImpl MessageHandler) : List Nat :=
  c.trace.filterMap Trace.heartRsp

def loginReqConnections (c : TcpClientImpl MessageHandler) : List Nat :=
  c.trace.filterMap Trace.loginReq

structure LoginInv (c : TcpClientImpl MessageHandler) : Prop where
  started : c.stopped = false → c.sub.tcpSessionStarted = true
  unsent : c.sub.sent = false → heartRspConnections c = [] ∧ loginReqConnections c = []
  sent : c.sub.sent = true → ∃ n ∈ heartRspConnections c, loginReqConnections c = [n]

/-- From `c` to `c'` no heart_rsp body was handled and no login requested, and a session that
runs is one that was started. -/
structure Calm (c c' : TcpClientImpl MessageHandler) : Prop where
  heart : heartRspConnections c' = heartRspConnections c
  login : loginReqConnections c' = loginReqConnections c
  sent : c'.sub.sent = c.sub.sent
  started : (c.stopped = false → c.sub.tcpSessionStarted = true) →
    c'.stopped = false → c'.sub.tcpSessionStarted = true

namespace Calm

theorem refl (c : TcpClientImpl MessageHandler) : Calm c c := ⟨rfl, rfl, rfl, id⟩

theorem trans {c₁ c₂ c₃ : TcpClientImpl MessageHandler} (h : Calm c₁ c₂) (h' : Calm c₂ c₃) :
    Calm c₁ c₃ where
  heart := h'.heart.trans h.heart
  login := h'.login.trans h.login
  sent := h'.sent.trans h.sent
  started := h'.started ∘ h.started

theorem inv {c c' : TcpClientImpl MessageHandler} (h : Calm c c') (hinv : LoginInv c) :
    LoginInv c' where
  started := h.started hinv.started
  unsent hsent := by
    rw [h.heart, h.login]
    exact hinv.unsent (h.sent.symm.trans hsent)
  sent hsent := by
    rw [h.heart, h.login]
    exact hinv.sent (h.sent.symm.trans hsent)

theorem of_log {c c' : TcpClientImpl MessageHandler} {t : Trace} (hheart : t.heartRsp = none)
    (hlogin : t.loginReq = none) (htrace : c'.trace = c.trace ++ [t]) (hsub : c'.sub = c.sub)
    (hstopped : c'.stopped = c.stopped) : Calm c c' := by
  refine ⟨?_, ?_, by rw [hsub], by rw [hsub, hstopped]; exact id⟩
  · simp [heartRspConnections, htrace, hheart]
  · simp [loginReqConnections, htrace, hlogin]

end Calm

/-! ## Messages that are not logins -/

def NoLogin (out : List TcpMessage) : Prop := ∀ m ∈ out, m.msgType ≠ kLoginReq

theorem msgType_of_mem_writeIfStarted {h : MessageHandler} {msgType : UInt32} {body : Bytes}
    {m : TcpMessage} (hm : m ∈ h.writeIfStarted msgType body) : m.msgType = msgType := by
  unfold writeIfStarted at hm
  split at hm
  · obtain rfl := List.mem_singleton.mp hm
    rfl
  · cases hm

theorem noLogin_writeIfStarted (h : MessageHandler) {msgType : UInt32} (hne : msgType ≠ kLoginReq)
    (body : Bytes) : NoLogin (h.writeIfStarted msgType body) := by
  intro m hm
  rw [msgType_of_mem_writeIfStarted hm]
  exact hne

theorem filterMap_handed {out : List TcpMessage} (hout : NoLogin out) (connection : Nat) :
    (out.map (Trace.handed connection)).filterMap Trace.loginReq = [] := by
  rw [List.filterMap_map, List.filterMap_eq_nil_iff]
  intro m hm
  exact if_neg (hout m hm)

theorem filterMap_handed_heart (out : List TcpMessage) (connection : Nat) :
    (out.map (Trace.handed connection)).filterMap Trace.heartRsp = [] := by
  rw [List.filterMap_map, List.filterMap_eq_nil_iff]
  intro m _
  rfl

variable (p : Platform) (transfers : Nat → Transfer)

theorem connections_sendMessage (c : TcpClientImpl MessageHandler) (msg : BusMessage) :
    heartRspConnections (c.sendMessage (bus p transfers) msg) =
        heartRspConnections c ++ (Trace.heartRsp (.published c.io.connection msg)).toList ∧
      loginReqConnections (c.sendMessage (bus p transfers) msg) =
        loginReqConnections c ++ ((deliver p transfers c.io.now msg c.sub).2.map
          (Trace.handed c.io.connection)).filterMap Trace.loginReq := by
  rw [sendMessage_eq]
  constructor
  · simp only [heartRspConnections, List.filterMap_append, List.filterMap_cons,
      filterMap_handed_heart]
    cases Trace.heartRsp (.published c.io.connection msg) with
    | none => rfl
    | some n => rfl
  · simp only [loginReqConnections, List.filterMap_append, List.filterMap_cons]
    rfl

theorem calm_sendMessage (c : TcpClientImpl MessageHandler) (msg : BusMessage)
    (hheart : Trace.heartRsp (.published c.io.connection msg) = none)
    (hout : NoLogin (deliver p transfers c.io.now msg c.sub).2)
    (hsent : (deliver p transfers c.io.now msg c.sub).1.sent = c.sub.sent)
    (hstarted : c.sub.tcpSessionStarted = true →
      (deliver p transfers c.io.now msg c.sub).1.tcpSessionStarted = true) :
    Calm c (c.sendMessage (bus p transfers) msg) := by
  obtain ⟨hh, hl⟩ := connections_sendMessage p transfers c msg
  refine ⟨?_, ?_, ?_, ?_⟩
  · rw [hh, hheart]
    exact List.append_nil _
  · rw [hl, filterMap_handed hout]
    exact List.append_nil _
  · rw [sendMessage_eq]
    exact hsent
  · rw [sendMessage_eq]
    intro hold hrunning
    exact hstarted (hold hrunning)

theorem noLogin_nil : NoLogin [] := by
  intro m hm
  cases hm

theorem calm_heartbeat (c : TcpClientImpl MessageHandler) :
    Calm c (c.sendMessage (bus p transfers) .kMsgHeartbeatReq) :=
  calm_sendMessage p transfers c _ rfl (noLogin_writeIfStarted _ (by decide) _) rfl id

theorem calm_unheard (c : TcpClientImpl MessageHandler) (msg : BusMessage)
    (hheart : Trace.heartRsp (.published c.io.connection msg) = none)
    (hmsg : deliver p transfers c.io.now msg c.sub = (c.sub, [])) :
    Calm c (c.sendMessage (bus p transfers) msg) := by
  apply calm_sendMessage p transfers c msg hheart
  · rw [hmsg]
    exact noLogin_nil
  · rw [hmsg]
  · rw [hmsg]
    exact id

theorem calm_close (c : TcpClientImpl MessageHandler) :
    Calm c { c.sendMessage (bus p transfers) .kMsgClose with stopped := true } := by
  obtain ⟨hh, hl⟩ := connections_sendMessage p transfers c .kMsgClose
  refine ⟨hh.trans (List.append_nil _), hl.trans (List.append_nil _), ?_, nofun⟩
  rw [sendMessage_eq]
  rfl

theorem calm_frame : Frame (bus p transfers) Calm where
  refl := Calm.refl
  trans := Calm.trans
  setIo _ _ _ _ := ⟨rfl, rfl, rfl, id⟩
  setWriter _ _ _ := ⟨rfl, rfl, rfl, id⟩
  setSession _ _ _ _ _ := ⟨rfl, rfl, rfl, id⟩
  stop _ := ⟨rfl, rfl, rfl, nofun⟩
  logConnect _ := Calm.of_log (t := .connectIssued) rfl rfl rfl rfl rfl
  logWrite _ _ _ := Calm.of_log (t := .writeIssued _ _) rfl rfl rfl rfl rfl
  sendError c := calm_unheard p transfers c _ rfl rfl
  sendHeartbeat c := calm_heartbeat p transfers c
  sendClose c := calm_close p transfers c

/-! ## Reading -/

theorem calm_startRead (c : TcpClientImpl MessageHandler) : Calm c (startRead c) :=
  Calm.of_log (t := .readIssued _ _ _) rfl rfl rfl rfl rfl

theorem calm_readRest (c : TcpClientImpl MessageHandler) (msg : TcpMessage) :
    Calm c (readRest c msg) :=
  Calm.of_log (t := .readIssued _ _ _) rfl rfl rfl rfl rfl

theorem calm_handleReadHeader (c : TcpClientImpl MessageHandler) :
    Calm c (c.handleReadHeader (bus p transfers) false) := by
  apply (calm_frame p transfers).handleReadHeader calm_readRest
  exact fun c msg => calm_unheard p transfers c (.kMsgReadHeader msg) rfl rfl

theorem onReadBody_other (now : Nat) (h : MessageHandler) {msg : TcpMessage}
    (hmsg : msg.msgType ≠ kHeartRsp) :
    NoLogin (h.onReadBody p transfers now msg).2 ∧
      (h.onReadBody p transfers now msg).1.sent = h.sent ∧
      (h.onReadBody p transfers now msg).1.tcpSessionStarted = h.tcpSessionStarted := by
  have hreport : NoLogin (sendFileInfos p now h) := noLogin_writeIfStarted _ (by decide) _
  unfold onReadBody
  rw [if_neg (Ne.symm hmsg)]
  split
  · exact ⟨noLogin_writeIfStarted _ (by decide) _, rfl, rfl⟩
  · split
    · unfold onUpdateFileNtf
      split
      · exact ⟨noLogin_nil, rfl, rfl⟩
      · split
        · exact ⟨noLogin_nil, rfl, rfl⟩
        · exact ⟨noLogin_nil, rfl, rfl⟩
        · refine ⟨?_, rfl, rfl⟩
          simp only [onRecvFileInfos]
          split
          · exact noLogin_writeIfStarted _ (by decide) _
          · exact noLogin_nil
    · exact ⟨noLogin_nil, rfl, rfl⟩

/-- A body is handled on a running session: the first heart_rsp brings the only login. -/
theorem inv_sendReadBody {c : TcpClientImpl MessageHandler} (hrunning : c.stopped = false)
    (hinv : LoginInv c) (msg : TcpMessage) :
    LoginInv (c.sendMessage (bus p transfers) (.kMsgReadBody msg)) := by
  have hstarted := hinv.started hrunning
  obtain ⟨hheart, hlogin⟩ := connections_sendMessage p transfers c (.kMsgReadBody msg)
  by_cases hmsg : msg.msgType = kHeartRsp
  · have hhere : Trace.heartRsp (.published c.io.connection (.kMsgReadBody msg)) =
        some c.io.connection := if_pos hmsg
    have hdeliver : deliver p transfers c.io.now (.kMsgReadBody msg) c.sub =
        c.sub.onHeartRsp p c.io.now := if_pos hmsg.symm
    rw [hhere] at hheart
    rw [hdeliver] at hlogin
    cases hsent : c.sub.sent with
    | true =>
        have hquiet : c.sub.onHeartRsp p c.io.now = (c.sub, []) := if_pos hsent
        rw [hquiet] at hdeliver hlogin
        obtain ⟨n, hn, hlog⟩ := hinv.sent hsent
        have hsub : (c.sendMessage (bus p transfers) (.kMsgReadBody msg)).sub = c.sub := by
          rw [sendMessage_eq]
          exact congrArg Prod.fst hdeliver
        refine ⟨fun _ => by rw [hsub, hstarted], fun hno => ?_, fun _ => ⟨n, ?_, ?_⟩⟩
        · rw [hsub, hsent] at hno
          cases hno
        · rw [hheart]
          exact List.mem_append_left _ hn
        · rw [hlogin, hlog]
          exact List.append_nil _
    | false =>
        obtain ⟨hnone, hnologin⟩ := hinv.unsent hsent
        have hfirst : c.sub.onHeartRsp p c.io.now =
            { c.sub with sent := true }.sendLoginReq p c.io.now := by
          rw [onHeartRsp, hsent]
          rfl
        have hout : ({ c.sub with sent := true }.sendLoginReq p c.io.now).2 =
            [{ msgType := kLoginReq
               body := encodeLoginReq p c.io.now p.localIp c.sub.clientType }] := if_pos hstarted
        have hsub : (c.sendMessage (bus p transfers) (.kMsgReadBody msg)).sub =
            ({ c.sub with sent := true }.sendLoginReq p c.io.now).1 := by
          rw [sendMessage_eq]
          exact congrArg Prod.fst (hdeliver.trans hfirst)
        rw [hfirst, hout, hnologin] at hlogin
        rw [hnone] at hheart
        refine ⟨fun _ => by rw [hsub]; exact hstarted, fun hno => ?_,
          fun _ => ⟨c.io.connection, ?_, hlogin⟩⟩
        · rw [hsub] at hno
          cases hno
        · rw [hheart]
          exact List.mem_singleton_self _
  · obtain ⟨hout, hsent, hsession⟩ := onReadBody_other p transfers c.io.now c.sub hmsg
    have hcalm := calm_sendMessage p transfers c (.kMsgReadBody msg) (if_neg hmsg)
      hout hsent fun h => hsession.trans h
    exact hcalm.inv hinv

theorem inv_handleReadBody {c : TcpClientImpl MessageHandler} (hinv : LoginInv c) :
    LoginInv (c.handleReadBody (bus p transfers) false) := by
  unfold TcpClientImpl.handleReadBody
  by_cases hstopped : c.stopped = true
  · rw [if_pos hstopped]
    exact hinv
  · rw [if_neg hstopped, if_neg (by decide)]
    generalize TcpClientImpl.retrieveBody c.rbuf c.readMsg = msg
    have hset : LoginInv { c with readMsg := msg } := ⟨hinv.started, hinv.unsent, hinv.sent⟩
    have hsent := inv_sendReadBody p transfers (by simpa using hstopped) hset msg
    exact (calm_startRead _).inv hsent

/-! ## Runs -/

theorem calm_start (c : TcpClientImpl MessageHandler) : Calm c
    ({ c with stopped := false, closed := false, reconnectFlag := 0 }.sendMessage (bus p transfers)
      .kMsgStart) := by
  let d : TcpClientImpl MessageHandler :=
    { c with stopped := false, closed := false, reconnectFlag := 0 }
  obtain ⟨hheart, hlogin⟩ := connections_sendMessage p transfers d .kMsgStart
  have hout : NoLogin (deliver p transfers d.io.now .kMsgStart d.sub).2 :=
    noLogin_writeIfStarted { d.sub with tcpSessionStarted := true }
      (show kHeartReq ≠ kLoginReq by decide) _
  rw [filterMap_handed hout] at hlogin
  refine ⟨hheart.trans (List.append_nil _), hlogin.trans (List.append_nil _), ?_, ?_⟩
  · rw [sendMessage_eq]
    rfl
  · intro _ _
    rw [sendMessage_eq]
    rfl

theorem calm_handleConnect {c : TcpClientImpl MessageHandler} (hopen : c.io.isOpen = true) :
    Calm c (c.handleConnect (bus p transfers) false) :=
  (calm_frame p transfers).handleConnect_opened (calm_start p transfers) calm_startRead hopen

theorem inv_completeRead {c : TcpClientImpl MessageHandler} (hinv : LoginInv c)
    (handler : ReadHandler) : LoginInv (c.completeRead (bus p transfers) handler false) := by
  cases handler with
  | handleReadHeader => exact (calm_handleReadHeader p transfers _).inv hinv
  | handleReadBody => exact inv_handleReadBody p transfers hinv

theorem calm_runReport (c : TcpClientImpl MessageHandler) (i : Nat) :
    Calm c (runReport p c i) := by
  have hout : NoLogin (({ c.sub with
      reports := c.sub.reports.eraseIdx i }).startSendFileInfosTimer p c.io.now).2 :=
    noLogin_writeIfStarted _ (by decide) _
  unfold runReport
  dsimp only
  rw [foldl_write]
  refine ⟨?_, ?_, rfl, id⟩
  · simp only [heartRspConnections, List.filterMap_append, filterMap_handed_heart, List.append_nil]
  · simp only [loginReqConnections, List.filterMap_append, filterMap_handed hout, List.append_nil]

theorem step_inv (c : TcpClientImpl MessageHandler) (e : Event)
    (c' : TcpClientImpl MessageHandler) (hinv : LoginInv c)
    (hstep : step p transfers c e = some c') : LoginInv c' := by
  obtain ⟨e, rfl, hio⟩ | ⟨i, due, -, -, -, rfl⟩ := step_cases p transfers hstep
  · cases TcpClientImpl.readerStep_of_step hio with
    | framed he => exact ((calm_frame p transfers).step he hio).inv hinv
    | readDone i op hop hconnection hlength =>
        have htaken : LoginInv (takeInbox { c with io.reads := c.io.reads.eraseIdx i } op) :=
          ⟨hinv.started, hinv.unsent, hinv.sent⟩
        exact inv_completeRead p transfers htaken op.handler
    | opened hconnects =>
        have hopened : LoginInv (establish { c with io.connects := c.io.connects - 1 }) :=
          ⟨hinv.started, hinv.unsent, hinv.sent⟩
        exact (calm_handleConnect p transfers rfl).inv hopened
  · exact (calm_runReport p c i).inv hinv

/-- In every run of the client, over any number of connections: a login request goes out on
every connection on which a heart_rsp body is handled, if and only if that is so on one
connection at most. -/
theorem login_on_each_connection_iff (cfg : ClientConfig) (sysUpdateHandler : SysUpdateHandler)
    (fileInfos : Bytes) {es : List Event} {c : TcpClientImpl MessageHandler}
    (hrun : run (step p transfers) (client cfg (start cfg sysUpdateHandler fileInfos)) es = some c) :
    (∀ n ∈ heartRspConnections c, n ∈ loginReqConnections c) ↔
      ∀ n ∈ heartRspConnections c, ∀ m ∈ heartRspConnections c, n = m := by
  have hinit : LoginInv (client cfg (start cfg sysUpdateHandler fileInfos)) :=
    ⟨nofun, fun _ => ⟨rfl, rfl⟩, nofun⟩
  have hinv := run_invariant (step_inv p transfers) hinit hrun
  cases hsent : c.sub.sent with
  | false =>
      obtain ⟨hnone, -⟩ := hinv.unsent hsent
      simp [hnone]
  | true =>
      obtain ⟨first, hfirst, hlogin⟩ := hinv.sent hsent
      rw [hlogin]
      constructor
      · intro h n hn m hm
        rw [List.mem_singleton.mp (h n hn), List.mem_singleton.mp (h m hm)]
      · intro h n hn
        exact List.mem_singleton.mpr (h n hn first hfirst)

/-! ## Two connections -/

def sampleStart : TcpClientImpl MessageHandler :=
  client TcpClientImpl.sampleConfig (start TcpClientImpl.sampleConfig
    (SysUpdateHandler.start TcpClientImpl.sampleConfig.httpServer ⟨fun _ => none⟩) [])

def connectAndHear : List Event :=
  [.io (.connected true),
    .io (.arrive [1, 1, 1, 1, 18, 0, 0, 0, 0xDC, 7, 0, 0, 2, 0, 0, 0, 0x7b, 0x7d]),
    .io (.readDone 0), .io (.readDone 0)]

def breakAndReconnect : List Event :=
  [.io (.readFailed 0), .io .runPosted, .io .runPosted, .io .runPosted, .io (.tick 5000),
    .io (.reconnectDue 0)]

theorem login_on_first_connection :
    ∃ c, run (step samplePlatform fun _ => ⟨true, 0, []⟩) sampleStart connectAndHear = some c ∧
      ∀ n ∈ heartRspConnections c, n ∈ loginReqConnections c := by
  have hone : ∃ c ∈ run (step samplePlatform fun _ => ⟨true, 0, []⟩) sampleStart connectAndHear,
      ∀ n ∈ heartRspConnections c, ∀ m ∈ heartRspConnections c, n = m := by
    decide +kernel
  obtain ⟨c, hrun, hsame⟩ := hone
  exact ⟨c, hrun, (login_on_each_connection_iff samplePlatform _ _ _ _ hrun).mpr hsame⟩

/-- After a reconnect the client hears the server again and does not log in. -/
theorem no_login_after_reconnect : ¬ ∀ (p : Platform) (transfers : Nat → Transfer)
    (cfg : ClientConfig) (sysUpdateHandler : SysUpdateHandler) (fileInfos : Bytes)
    (es : List Event) (c : TcpClientImpl MessageHandler),
    run (step p transfers) (client cfg (start cfg sysUpdateHandler fileInfos)) es = some c →
      ∀ n ∈ heartRspConnections c, n ∈ loginReqConnections c := by
  intro h
  have hbad : ∃ c ∈ run (step samplePlatform fun _ => ⟨true, 0, []⟩) sampleStart
      (connectAndHear ++ breakAndReconnect ++ connectAndHear),
      2 ∈ heartRspConnections c ∧ 2 ∉ loginReqConnections c := by
    decide +kernel
  obtain ⟨c, hrun, hheard, hlogin⟩ := hbad
  exact hlogin (h _ _ _ _ _ _ c hrun 2 hheard)

end MessageHandler

end CloudEdgePush.Client
