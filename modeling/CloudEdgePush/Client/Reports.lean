import CloudEdgePush.Client.Login

/-!
# File reports

A login_rsp sets `_isLogin` and starts a chain of report tasks; nothing resets the one or ends
the other.  `ReportStep` says what an event does to both; from it follow the number of chains
(`length_reports`) and the connections on which a report is sent without a login
(`acknowledged_iff`).
-/

namespace CloudEdgePush.Client

open CloudEdgePush.Lib CloudEdgePush.Lib.Transition

def Trace.loginRsp : Trace → Option Nat
  | .published connection (.kMsgReadBody msg) =>
      if msg.msgType = kLoginRsp then some connection else none
  | _ => none

def Trace.fileInfosNtf : Trace → Option Nat
  | .handed connection msg => if msg.msgType = kSendFileInfosNtf then some connection else none
  | _ => none

namespace MessageHandler

open TcpClientImpl (asyncRead readRest startRead sendMessage sendMessage_eq Frame foldl_write
  establish takeInbox)

def loginRspConnections (c : TcpClientImpl MessageHandler) : List Nat :=
  c.trace.filterMap Trace.loginRsp

structure Unreported (c c' : TcpClientImpl MessageHandler) : Prop where
  trace : ∃ new, c'.trace = c.trace ++ new ∧ ∀ t ∈ new, t.loginRsp = none ∧ t.fileInfosNtf = none
  isLogin : c'.sub.isLogin = c.sub.isLogin
  reports : c'.sub.reports = c.sub.reports
  connection : c'.io.connection = c.io.connection

namespace Unreported

theorem of_trace {c c' : TcpClientImpl MessageHandler} (htrace : c'.trace = c.trace)
    (hsub : c'.sub = c.sub) (hconnection : c'.io.connection = c.io.connection) :
    Unreported c c' :=
  ⟨⟨[], by rw [htrace, List.append_nil], nofun⟩, by rw [hsub], by rw [hsub], hconnection⟩

theorem refl (c : TcpClientImpl MessageHandler) : Unreported c c := of_trace rfl rfl rfl

theorem trans {c₁ c₂ c₃ : TcpClientImpl MessageHandler} (h : Unreported c₁ c₂)
    (h' : Unreported c₂ c₃) : Unreported c₁ c₃ := by
  obtain ⟨new, htrace, hnew⟩ := h.trace
  obtain ⟨new', htrace', hnew'⟩ := h'.trace
  refine ⟨⟨new ++ new', ?_, ?_⟩, h'.isLogin.trans h.isLogin, h'.reports.trans h.reports,
    h'.connection.trans h.connection⟩
  · rw [htrace', htrace, List.append_assoc]
  · intro t ht
    exact (List.mem_append.mp ht).elim (hnew t) (hnew' t)

theorem of_log {c c' : TcpClientImpl MessageHandler} {t : Trace} (hlogin : t.loginRsp = none)
    (hreport : t.fileInfosNtf = none) (htrace : c'.trace = c.trace ++ [t]) (hsub : c'.sub = c.sub)
    (hconnection : c'.io.connection = c.io.connection) : Unreported c c' := by
  refine ⟨⟨[t], htrace, ?_⟩, by rw [hsub], by rw [hsub], hconnection⟩
  intro t' ht'
  obtain rfl := List.mem_singleton.mp ht'
  exact ⟨hlogin, hreport⟩

theorem loginRspConnections_eq {c c' : TcpClientImpl MessageHandler} (h : Unreported c c') :
    loginRspConnections c' = loginRspConnections c := by
  obtain ⟨new, htrace, hnew⟩ := h.trace
  have hnone : new.filterMap Trace.loginRsp = [] :=
    List.filterMap_eq_nil_iff.mpr fun t ht => (hnew t ht).1
  rw [loginRspConnections, htrace, List.filterMap_append, hnone, List.append_nil]
  rfl

end Unreported

/-! ## Messages that are not reports -/

def NoReport (out : List TcpMessage) : Prop := ∀ m ∈ out, m.msgType ≠ kSendFileInfosNtf

theorem noReport_nil : NoReport [] := nofun

theorem noReport_writeIfStarted (h : MessageHandler) {msgType : UInt32}
    (hne : msgType ≠ kSendFileInfosNtf) (body : Bytes) :
    NoReport (h.writeIfStarted msgType body) := by
  intro m hm
  rw [msgType_of_mem_writeIfStarted hm]
  exact hne

theorem handed_quiet {out : List TcpMessage} (hout : NoReport out) (connection : Nat) :
    ∀ t ∈ out.map (Trace.handed connection), t.loginRsp = none ∧ t.fileInfosNtf = none := by
  intro t ht
  obtain ⟨m, hm, rfl⟩ := List.mem_map.mp ht
  exact ⟨rfl, if_neg (hout m hm)⟩

variable (p : Platform) (transfers : Nat → Transfer)

theorem unreported_sendMessage (c : TcpClientImpl MessageHandler) (msg : BusMessage)
    (hrsp : Trace.loginRsp (.published c.io.connection msg) = none)
    (hout : NoReport (deliver p transfers c.io.now msg c.sub).2)
    (hlogin : (deliver p transfers c.io.now msg c.sub).1.isLogin = c.sub.isLogin)
    (hreports : (deliver p transfers c.io.now msg c.sub).1.reports = c.sub.reports) :
    Unreported c (c.sendMessage (bus p transfers) msg) := by
  rw [sendMessage_eq]
  refine ⟨⟨_, rfl, ?_⟩, hlogin, hreports, rfl⟩
  intro t ht
  rcases List.mem_cons.mp ht with rfl | ht
  · exact ⟨hrsp, rfl⟩
  · exact handed_quiet hout c.io.connection t ht

theorem unreported_heartbeat (c : TcpClientImpl MessageHandler) :
    Unreported c (c.sendMessage (bus p transfers) .kMsgHeartbeatReq) :=
  unreported_sendMessage p transfers c _ rfl (noReport_writeIfStarted _ (by decide) _) rfl rfl

theorem unreported_frame : Frame (bus p transfers) Unreported where
  refl := Unreported.refl
  trans := Unreported.trans
  setIo _ _ hconnection _ := Unreported.of_trace rfl rfl hconnection
  setWriter _ _ _ := Unreported.of_trace rfl rfl rfl
  setSession _ _ _ _ _ := Unreported.of_trace rfl rfl rfl
  stop _ := Unreported.of_trace rfl rfl rfl
  logConnect _ := Unreported.of_log (t := .connectIssued) rfl rfl rfl rfl rfl
  logWrite _ _ _ := Unreported.of_log (t := .writeIssued _ _) rfl rfl rfl rfl rfl
  sendError c := unreported_sendMessage p transfers c _ rfl noReport_nil rfl rfl
  sendHeartbeat c := unreported_heartbeat p transfers c
  sendClose c := (unreported_sendMessage p transfers c .kMsgClose rfl noReport_nil rfl rfl).trans
    (Unreported.of_trace rfl rfl rfl)

theorem unreported_startRead (c : TcpClientImpl MessageHandler) : Unreported c (startRead c) :=
  Unreported.of_log (t := .readIssued _ _ _) rfl rfl rfl rfl rfl

theorem unreported_handleReadHeader (c : TcpClientImpl MessageHandler) :
    Unreported c (c.handleReadHeader (bus p transfers) false) := by
  apply (unreported_frame p transfers).handleReadHeader
  · exact fun c msg => Unreported.of_log (t := .readIssued _ _ _) rfl rfl rfl rfl rfl
  · exact fun c msg => unreported_sendMessage p transfers c (.kMsgReadHeader msg) rfl noReport_nil
      rfl rfl

theorem unreported_handleConnect {c : TcpClientImpl MessageHandler} (hopen : c.io.isOpen = true) :
    Unreported c (c.handleConnect (bus p transfers) false) := by
  refine (unreported_frame p transfers).handleConnect_opened (fun c => ?_) unreported_startRead hopen
  have hset : Unreported c { c with stopped := false, closed := false, reconnectFlag := 0 } :=
    Unreported.of_trace rfl rfl rfl
  exact hset.trans (unreported_sendMessage p transfers _ .kMsgStart rfl
    (noReport_writeIfStarted { c.sub with tcpSessionStarted := true } (by decide) _) rfl rfl)

/-! ## Messages with a body -/

/-- A message other than login_rsp keeps the login and the chains, and file infos are sent only
when the client is logged in. -/
theorem onReadBody_keeps (now : Nat) (h : MessageHandler) {msg : TcpMessage}
    (hmsg : msg.msgType ≠ kLoginRsp) :
    (h.onReadBody p transfers now msg).1.isLogin = h.isLogin ∧
      (h.onReadBody p transfers now msg).1.reports = h.reports ∧
      (h.isLogin = false → NoReport (h.onReadBody p transfers now msg).2) := by
  unfold onReadBody
  split
  · unfold onHeartRsp
    split
    · exact ⟨rfl, rfl, fun _ => noReport_nil⟩
    · exact ⟨rfl, rfl, fun _ => noReport_writeIfStarted _ (by decide) _⟩
  · rw [if_neg hmsg.symm]
    split
    · unfold onUpdateFileNtf
      split
      · exact ⟨rfl, rfl, fun _ => noReport_nil⟩
      · split
        · exact ⟨rfl, rfl, fun _ => noReport_nil⟩
        · exact ⟨rfl, rfl, fun _ => noReport_nil⟩
        · refine ⟨rfl, rfl, fun hlogin => ?_⟩
          simp only [onRecvFileInfos, hlogin]
          rw [if_neg (by simp)]
          exact noReport_nil
    · exact ⟨rfl, rfl, fun _ => noReport_nil⟩

theorem onReadBody_loginRsp (now : Nat) (h : MessageHandler) {msg : TcpMessage}
    (hmsg : msg.msgType = kLoginRsp) :
    h.onReadBody p transfers now msg = h.onLoginRsp p now := by
  unfold onReadBody
  rw [hmsg, if_neg (by decide), if_pos rfl]

/-! ## Steps -/

inductive ReportStep (c : TcpClientImpl MessageHandler) :
    Event → TcpClientImpl MessageHandler → Prop
  | quiet {e : Event} {c' : TcpClientImpl MessageHandler} (hquiet : Unreported c c')
      (hopened : e ≠ .io (.connected true)) : ReportStep c e c'
  | opened {c' : TcpClientImpl MessageHandler} (hquiet : Unreported (establish c) c') :
      ReportStep c (.io (.connected true)) c'
  | body (i : Nat) {c₁ c' : TcpClientImpl MessageHandler} (msg : TcpMessage)
      (hread : Unreported c c₁)
      (hstart : Unreported (c₁.sendMessage (bus p transfers) (.kMsgReadBody msg)) c') :
      ReportStep c (.io (.readDone i)) c'
  | report (i : Nat) (due : Nat) (htask : c.sub.reports[i]? = some due) :
      ReportStep c (.report i) (runReport p c i)

theorem body_handleReadBody (c : TcpClientImpl MessageHandler) :
    c.completeRead (bus p transfers) .handleReadBody false = c ∨
      ∃ c₁ msg, Unreported c c₁ ∧ Unreported (c₁.sendMessage (bus p transfers) (.kMsgReadBody msg))
        (c.completeRead (bus p transfers) .handleReadBody false) := by
  by_cases hstopped : c.stopped = true
  · exact .inl (if_pos hstopped)
  · let c₁ : TcpClientImpl MessageHandler :=
      { c with readMsg := TcpClientImpl.retrieveBody c.rbuf c.readMsg }
    have hbody : c.completeRead (bus p transfers) .handleReadBody false =
        startRead (c₁.sendMessage (bus p transfers) (.kMsgReadBody c₁.readMsg)) := by
      simp only [TcpClientImpl.completeRead, TcpClientImpl.handleReadBody]
      rw [if_neg hstopped, if_neg (by decide)]
    rw [hbody]
    exact .inr ⟨c₁, c₁.readMsg, Unreported.of_trace rfl rfl rfl, unreported_startRead _⟩

theorem reportStep_of_step {c c' : TcpClientImpl MessageHandler} {e : Event}
    (hstep : step p transfers c e = some c') : ReportStep p transfers c e c' := by
  obtain ⟨e, rfl, hio⟩ | ⟨i, due, rfl, htask, -, rfl⟩ := step_cases p transfers hstep
  · cases TcpClientImpl.readerStep_of_step hio with
    | framed he =>
        refine .quiet ((unreported_frame p transfers).step he hio) ?_
        rintro ⟨⟩
        cases he
    | readDone i op hop hconnection hlength =>
        have htaken : Unreported c (takeInbox { c with io.reads := c.io.reads.eraseIdx i } op) :=
          Unreported.of_trace rfl rfl rfl
        cases hhandler : op.handler with
        | handleReadHeader =>
            exact .quiet (htaken.trans (unreported_handleReadHeader p transfers _)) nofun
        | handleReadBody =>
            rcases body_handleReadBody p transfers
              (takeInbox { c with io.reads := c.io.reads.eraseIdx i } op) with
              hsame | ⟨c₁, msg, hread, hstart⟩
            · rw [hsame]
              exact .quiet htaken nofun
            · exact .body i msg (htaken.trans hread) hstart
    | opened hconnects =>
        have hset : Unreported (establish c)
            (establish { c with io.connects := c.io.connects - 1 }) :=
          Unreported.of_trace rfl rfl rfl
        exact .opened (hset.trans (unreported_handleConnect p transfers rfl))
  · exact .report i due htask

theorem loginRspConnections_append {c c' : TcpClientImpl MessageHandler} {new : List Trace}
    (htrace : c'.trace = c.trace ++ new) :
    loginRspConnections c' = loginRspConnections c ++ new.filterMap Trace.loginRsp := by
  rw [loginRspConnections, htrace, List.filterMap_append]
  rfl

theorem filterMap_loginRsp_handed (out : List TcpMessage) (connection : Nat) :
    (out.map (Trace.handed connection)).filterMap Trace.loginRsp = [] := by
  rw [List.filterMap_map, List.filterMap_eq_nil_iff]
  intro m _
  rfl

theorem trace_sendReadBody (c : TcpClientImpl MessageHandler) (msg : TcpMessage) :
    (c.sendMessage (bus p transfers) (.kMsgReadBody msg)).trace =
      c.trace ++ .published c.io.connection (.kMsgReadBody msg) ::
        (c.sub.onReadBody p transfers c.io.now msg).2.map (.handed c.io.connection) := by
  rw [sendMessage_eq]
  rfl

theorem sub_sendReadBody (c : TcpClientImpl MessageHandler) (msg : TcpMessage) :
    (c.sendMessage (bus p transfers) (.kMsgReadBody msg)).sub =
      (c.sub.onReadBody p transfers c.io.now msg).1 := by
  rw [sendMessage_eq]
  rfl

theorem connection_sendMessage (c : TcpClientImpl MessageHandler) (msg : BusMessage) :
    (c.sendMessage (bus p transfers) msg).io.connection = c.io.connection := by
  rw [sendMessage_eq]

theorem loginRspConnections_sendReadBody (c : TcpClientImpl MessageHandler) (msg : TcpMessage) :
    loginRspConnections (c.sendMessage (bus p transfers) (.kMsgReadBody msg)) =
      loginRspConnections c ++ if msg.msgType = kLoginRsp then [c.io.connection] else [] := by
  rw [loginRspConnections_append (trace_sendReadBody p transfers c msg), List.filterMap_cons,
    filterMap_loginRsp_handed]
  by_cases hmsg : msg.msgType = kLoginRsp
  · simp [Trace.loginRsp, hmsg]
  · simp [Trace.loginRsp, hmsg]

theorem runReport_eq (c : TcpClientImpl MessageHandler) (i : Nat) :
    ∃ posted, runReport p c i =
      { c with
        sub := { c.sub with reports := c.sub.reports.eraseIdx i ++ [c.io.now + 60 * 1000] }
        trace := c.trace ++
          ({ c.sub with reports := c.sub.reports.eraseIdx i }.sendFileInfos p c.io.now).map
            (.handed c.io.connection)
        io.posted := posted } := by
  unfold runReport
  dsimp only
  rw [foldl_write]
  exact ⟨_, rfl⟩

/-! ## Chains -/

theorem length_reports_step (c : TcpClientImpl MessageHandler) (e : Event)
    (c' : TcpClientImpl MessageHandler)
    (h : c.sub.reports.length = (loginRspConnections c).length)
    (hstep : step p transfers c e = some c') :
    c'.sub.reports.length = (loginRspConnections c').length := by
  cases reportStep_of_step p transfers hstep with
  | quiet hquiet hopened =>
      rw [hquiet.reports, hquiet.loginRspConnections_eq]
      exact h
  | opened hquiet =>
      rw [hquiet.reports, hquiet.loginRspConnections_eq]
      exact h
  | body i msg hread hstart =>
      rename_i c₁
      have hbefore : c₁.sub.reports.length = (loginRspConnections c₁).length := by
        rw [hread.reports, hread.loginRspConnections_eq]
        exact h
      rw [hstart.reports, hstart.loginRspConnections_eq, sub_sendReadBody,
        loginRspConnections_sendReadBody]
      by_cases hmsg : msg.msgType = kLoginRsp
      · rw [onReadBody_loginRsp p transfers _ _ hmsg, if_pos hmsg]
        simp [onLoginRsp, startSendFileInfosTimer, hbefore]
      · rw [(onReadBody_keeps p transfers _ _ hmsg).2.1, if_neg hmsg, List.append_nil]
        exact hbefore
  | report i due htask =>
      obtain ⟨posted, hrun⟩ := runReport_eq p c i
      have hlt : i < c.sub.reports.length := (List.getElem?_eq_some_iff.mp htask).1
      have hsame : loginRspConnections (runReport p c i) = loginRspConnections c := by
        rw [hrun, loginRspConnections_append (c := c) rfl, filterMap_loginRsp_handed,
          List.append_nil]
      rw [hsame, ← h, hrun]
      simp only [List.length_append, List.length_eraseIdx_of_lt hlt, List.length_singleton]
      omega

/-- In every state of every run, over any number of connections: at most one chain of reports is
alive if and only if the client has handled at most one login_rsp. -/
theorem one_chain_iff (cfg : ClientConfig) (sysUpdateHandler : SysUpdateHandler)
    (fileInfos : Bytes) {es : List Event} {c : TcpClientImpl MessageHandler}
    (hrun : run (step p transfers) (client cfg (start cfg sysUpdateHandler fileInfos)) es =
      some c) :
    c.sub.reports.length ≤ 1 ↔ (loginRspConnections c).length ≤ 1 := by
  have hcount := run_invariant (length_reports_step p transfers) rfl hrun
  rw [hcount]

def hearLogin : List Event :=
  [.io (.arrive [1, 1, 1, 1, 18, 0, 0, 0, 0xD2, 7, 0, 0, 2, 0, 0, 0, 0x7b, 0x7d]),
    .io (.readDone 0), .io (.readDone 0)]

theorem one_chain_after_login :
    ∃ c, run (step samplePlatform fun _ => ⟨true, 0, []⟩) sampleStart (connectAndHear ++ hearLogin) =
      some c ∧ c.sub.reports.length ≤ 1 := by
  have hone : ∃ c ∈ run (step samplePlatform fun _ => ⟨true, 0, []⟩) sampleStart
      (connectAndHear ++ hearLogin), (loginRspConnections c).length ≤ 1 := by
    decide +kernel
  obtain ⟨c, hrun, hcount⟩ := hone
  exact ⟨c, hrun, (one_chain_iff samplePlatform _ _ _ _ hrun).mpr hcount⟩

/-- A server that sends its login_rsp twice starts two chains. -/
theorem two_chains_after_repeated_login : ¬ ∀ (p : Platform) (transfers : Nat → Transfer)
    (cfg : ClientConfig) (sysUpdateHandler : SysUpdateHandler) (fileInfos : Bytes)
    (es : List Event) (c : TcpClientImpl MessageHandler),
    run (step p transfers) (client cfg (start cfg sysUpdateHandler fileInfos)) es = some c →
      c.sub.reports.length ≤ 1 := by
  intro h
  have hbad : ∃ c ∈ run (step samplePlatform fun _ => ⟨true, 0, []⟩) sampleStart
      (connectAndHear ++ hearLogin ++ hearLogin), c.sub.reports.length = 2 := by
    decide +kernel
  obtain ⟨c, hrun, htwo⟩ := hbad
  have hone := h _ _ _ _ _ _ c hrun
  omega

/-! ## Logins -/

/-- File infos are sent on a connection only after a login_rsp was handled on it. -/
def Acknowledged (trace : List Trace) : Prop :=
  ∀ before t after n, trace = before ++ t :: after → t.fileInfosNtf = some n →
    n ∈ before.filterMap Trace.loginRsp

theorem Acknowledged.append {trace new : List Trace} (h : Acknowledged trace)
    (hnew : ∀ t ∈ new, ∀ n, t.fileInfosNtf = some n → n ∈ trace.filterMap Trace.loginRsp) :
    Acknowledged (trace ++ new) := by
  intro before t after n heq hntf
  rcases List.append_eq_append_iff.mp heq with ⟨more, hbefore, hmore⟩ | ⟨more, htrace, hmore⟩
  · have hmem : t ∈ new := by simp [hmore]
    rw [hbefore, List.filterMap_append]
    exact List.mem_append_left _ (hnew t hmem n hntf)
  · cases more with
    | nil =>
        have hmem : t ∈ new := by
          rw [List.nil_append] at hmore
          rw [← hmore]
          exact List.mem_cons_self
        rw [List.append_nil] at htrace
        rw [← htrace]
        exact hnew t hmem n hntf
    | cons t' more =>
        obtain ⟨rfl, rfl⟩ := List.cons.inj hmore
        exact h before t more n htrace hntf

theorem Acknowledged.mem {trace : List Trace} (h : Acknowledged trace) {n : Nat}
    (hn : n ∈ trace.filterMap Trace.fileInfosNtf) : n ∈ trace.filterMap Trace.loginRsp := by
  obtain ⟨t, ht, hntf⟩ := List.mem_filterMap.mp hn
  obtain ⟨before, after, rfl⟩ := List.append_of_mem ht
  rw [List.filterMap_append]
  exact List.mem_append_left _ (h before t after n rfl hntf)

structure LoggedIn (c : TcpClientImpl MessageHandler) : Prop where
  reports : Acknowledged c.trace
  login : c.sub.isLogin = true → c.io.connection ∈ loginRspConnections c

/-- No connection is established when the client is logged in already. -/
def ConnectsLoggedOut (c : TcpClientImpl MessageHandler) (e : Event) : Prop :=
  e = .io (.connected true) → c.sub.isLogin = false

instance (c : TcpClientImpl MessageHandler) (e : Event) : Decidable (ConnectsLoggedOut c e) :=
  inferInstanceAs (Decidable (_ → _))

structure ReportInv (c : TcpClientImpl MessageHandler) : Prop where
  loggedIn : LoggedIn c
  chain : c.sub.reports ≠ [] → c.sub.isLogin = true
  past : ∀ n ∈ loginRspConnections c, n ≤ c.io.connection

theorem ReportInv.unreported {c c' : TcpClientImpl MessageHandler} (h : ReportInv c)
    (hquiet : Unreported c c') : ReportInv c' := by
  have hsame := hquiet.loginRspConnections_eq
  obtain ⟨new, htrace, hnew⟩ := hquiet.trace
  refine ⟨⟨?_, ?_⟩, ?_, ?_⟩
  · rw [htrace]
    apply h.loggedIn.reports.append
    intro t ht n hntf
    rw [(hnew t ht).2] at hntf
    cases hntf
  · rw [hquiet.isLogin, hquiet.connection, hsame]
    exact h.loggedIn.login
  · rw [hquiet.reports, hquiet.isLogin]
    exact h.chain
  · rw [hsame, hquiet.connection]
    exact h.past

theorem fileInfosNtf_handed {out : List TcpMessage} {connection n : Nat} {t : Trace}
    (ht : t ∈ out.map (Trace.handed connection)) (hntf : t.fileInfosNtf = some n) :
    n = connection ∧ ¬NoReport out := by
  obtain ⟨m, hm, rfl⟩ := List.mem_map.mp ht
  obtain ⟨htype, hn⟩ := Option.ite_none_right_eq_some.mp hntf
  exact ⟨(Option.some.inj hn).symm, fun hout => hout m hm htype⟩

theorem reportInv_sendReadBody {c : TcpClientImpl MessageHandler} (h : ReportInv c)
    (msg : TcpMessage) :
    ReportInv (c.sendMessage (bus p transfers) (.kMsgReadBody msg)) := by
  have hconnections := loginRspConnections_sendReadBody p transfers c msg
  have htrace := trace_sendReadBody p transfers c msg
  have hsub := sub_sendReadBody p transfers c msg
  have hconnection := connection_sendMessage p transfers c (.kMsgReadBody msg)
  -- the body itself, and then what is handed over
  have hsplit : (c.sendMessage (bus p transfers) (.kMsgReadBody msg)).trace =
      (c.trace ++ [.published c.io.connection (.kMsgReadBody msg)]) ++
        (c.sub.onReadBody p transfers c.io.now msg).2.map (.handed c.io.connection) := by
    rw [htrace, List.append_assoc]
    rfl
  have hpublished : Acknowledged (c.trace ++ [.published c.io.connection (.kMsgReadBody msg)]) := by
    apply h.loggedIn.reports.append
    intro t ht n hntf
    obtain rfl := List.mem_singleton.mp ht
    cases hntf
  have hpast : ∀ n ∈ loginRspConnections (c.sendMessage (bus p transfers) (.kMsgReadBody msg)),
      n ≤ (c.sendMessage (bus p transfers) (.kMsgReadBody msg)).io.connection := by
    rw [hconnections, hconnection]
    intro n hn
    rcases List.mem_append.mp hn with hold | hnew
    · exact h.past n hold
    · split at hnew
      · exact (List.mem_singleton.mp hnew).le
      · cases hnew
  by_cases hmsg : msg.msgType = kLoginRsp
  · have hhere : (Trace.published c.io.connection (.kMsgReadBody msg)).loginRsp =
        some c.io.connection := if_pos hmsg
    rw [onReadBody_loginRsp p transfers _ _ hmsg] at hsub
    rw [if_pos hmsg] at hconnections
    refine ⟨⟨?_, fun _ => ?_⟩, fun _ => ?_, hpast⟩
    · rw [hsplit]
      apply hpublished.append
      intro t ht n hntf
      obtain ⟨rfl, -⟩ := fileInfosNtf_handed ht hntf
      simp [hhere]
    · rw [hconnections, hconnection]
      exact List.mem_append_right _ List.mem_cons_self
    · rw [hsub]
      rfl
  · obtain ⟨hlogin, hreports, hnone⟩ := onReadBody_keeps p transfers c.io.now c.sub hmsg
    rw [if_neg hmsg, List.append_nil] at hconnections
    refine ⟨⟨?_, ?_⟩, ?_, hpast⟩
    · rw [hsplit]
      apply hpublished.append
      intro t ht n hntf
      obtain ⟨rfl, hsome⟩ := fileInfosNtf_handed ht hntf
      have hloggedIn : c.sub.isLogin = true := by
        by_contra hout
        exact hsome (hnone (by simpa using hout))
      rw [List.filterMap_append]
      exact List.mem_append_left _ (h.loggedIn.login hloggedIn)
    · rw [hsub, hlogin, hconnection, hconnections]
      exact h.loggedIn.login
    · rw [hsub, hlogin, hreports]
      exact h.chain

theorem reportInv_runReport {c : TcpClientImpl MessageHandler} (h : ReportInv c) {i due : Nat}
    (htask : c.sub.reports[i]? = some due) : ReportInv (runReport p c i) := by
  obtain ⟨posted, hrun⟩ := runReport_eq p c i
  have hlogin : c.sub.isLogin = true := by
    apply h.chain
    intro hnone
    rw [hnone] at htask
    cases htask
  have hsame : loginRspConnections (runReport p c i) = loginRspConnections c := by
    rw [hrun, loginRspConnections_append (c := c) rfl, filterMap_loginRsp_handed, List.append_nil]
  refine ⟨⟨?_, ?_⟩, ?_, ?_⟩
  · rw [hrun]
    apply h.loggedIn.reports.append
    intro t ht n hntf
    obtain ⟨rfl, -⟩ := fileInfosNtf_handed ht hntf
    exact h.loggedIn.login hlogin
  · rw [hsame, hrun]
    exact h.loggedIn.login
  · rw [hrun]
    exact fun _ => hlogin
  · rw [hsame, hrun]
    exact h.past

theorem reportInv_step (c : TcpClientImpl MessageHandler) (e : Event)
    (c' : TcpClientImpl MessageHandler) (h : ReportInv c) (hguard : ConnectsLoggedOut c e)
    (hstep : step p transfers c e = some c') : ReportInv c' := by
  cases reportStep_of_step p transfers hstep with
  | quiet hquiet hopened => exact h.unreported hquiet
  | opened hquiet =>
      have hlogin : c.sub.isLogin = false := hguard rfl
      have hopened : ReportInv (establish c) := by
        refine ⟨⟨h.loggedIn.reports, fun hloggedIn => ?_⟩, h.chain, fun n hn => ?_⟩
        · have hsame : c.sub.isLogin = true := hloggedIn
          rw [hlogin] at hsame
          cases hsame
        · exact (h.past n hn).trans (Nat.le_succ _)
      exact hopened.unreported hquiet
  | body i msg hread hstart =>
      exact (reportInv_sendReadBody p transfers (h.unreported hread) msg).unreported hstart
  | report i due htask => exact reportInv_runReport p h htask

theorem connectsLoggedOut_of_loggedIn (c : TcpClientImpl MessageHandler) (e : Event)
    (c' : TcpClientImpl MessageHandler) (h : ReportInv c) (hstep : step p transfers c e = some c')
    (hlogged : LoggedIn c') : ConnectsLoggedOut c e := by
  rintro rfl
  cases reportStep_of_step p transfers hstep with
  | quiet hquiet hopened => exact absurd rfl hopened
  | opened hquiet =>
      by_contra hlogin
      have hbefore : c.sub.isLogin = true := by simpa using hlogin
      have hkept : c'.sub.isLogin = true := hquiet.isLogin.trans hbefore
      have hconnection : c'.io.connection = c.io.connection + 1 := hquiet.connection
      have hmem := hlogged.login hkept
      rw [hquiet.loginRspConnections_eq, hconnection] at hmem
      have hle := h.past _ hmem
      omega

/-- In every run, over any number of connections: in all states file infos are sent on a
connection only after a login_rsp on it, and `_isLogin` is set only when the current connection
has one, if and only if no connection is established while `_isLogin` is set. -/
theorem loggedIn_iff (cfg : ClientConfig) (sysUpdateHandler : SysUpdateHandler)
    (fileInfos : Bytes) {es : List Event} {c : TcpClientImpl MessageHandler}
    (hrun : run (step p transfers) (client cfg (start cfg sysUpdateHandler fileInfos)) es =
      some c) :
    (∀ before m, before <+: es →
        run (step p transfers) (client cfg (start cfg sysUpdateHandler fileInfos)) before = some m →
          LoggedIn m) ↔
      AllSteps (step p transfers) ConnectsLoggedOut
        (client cfg (start cfg sysUpdateHandler fileInfos)) es := by
  have hstart : Acknowledged (client cfg (start cfg sysUpdateHandler fileInfos)).trace := by
    intro before t after n heq hntf
    have hmem : t ∈ [Trace.connectIssued] := by
      have hall : t ∈ before ++ t :: after := by simp
      rw [← heq] at hall
      exact hall
    obtain rfl := List.mem_singleton.mp hmem
    cases hntf
  have hinit : ReportInv (client cfg (start cfg sysUpdateHandler fileInfos)) :=
    ⟨⟨hstart, nofun⟩, fun h => absurd rfl h, nofun⟩
  exact prefixes_iff_of_guarded (reportInv_step p transfers) (fun _ h => h.loggedIn)
    (connectsLoggedOut_of_loggedIn p transfers) hinit hrun

theorem loggedIn_after_login :
    ∃ c, run (step samplePlatform fun _ => ⟨true, 0, []⟩) sampleStart
      (connectAndHear ++ hearLogin ++ [.io (.tick 60000), .report 0]) = some c ∧ LoggedIn c := by
  have hsteps : (run (step samplePlatform fun _ => ⟨true, 0, []⟩) sampleStart
      (connectAndHear ++ hearLogin ++ [.io (.tick 60000), .report 0])).isSome ∧
      AllSteps (step samplePlatform fun _ => ⟨true, 0, []⟩) ConnectsLoggedOut sampleStart
        (connectAndHear ++ hearLogin ++ [.io (.tick 60000), .report 0]) := by
    decide +kernel
  obtain ⟨c, hrun⟩ := Option.isSome_iff_exists.mp hsteps.1
  have hall := (loggedIn_iff samplePlatform _ _ _ _ hrun).mpr hsteps.2
  exact ⟨c, hrun, hall _ c (List.prefix_refl _) hrun⟩

/-- The connection of the login breaks, and the report task wakes up on the next one. -/
theorem report_without_login : ¬ ∀ (p : Platform) (transfers : Nat → Transfer)
    (cfg : ClientConfig) (sysUpdateHandler : SysUpdateHandler) (fileInfos : Bytes)
    (es : List Event) (c : TcpClientImpl MessageHandler),
    run (step p transfers) (client cfg (start cfg sysUpdateHandler fileInfos)) es = some c →
      LoggedIn c := by
  intro h
  have hbad : ∃ c ∈ run (step samplePlatform fun _ => ⟨true, 0, []⟩) sampleStart
      (connectAndHear ++ hearLogin ++ [.io .runPosted] ++ breakAndReconnect ++
        [.io (.connected true), .io (.tick 55000), .report 0]),
      2 ∈ c.trace.filterMap Trace.fileInfosNtf ∧ 2 ∉ loginRspConnections c := by
    decide +kernel
  obtain ⟨c, hrun, hsent, hnone⟩ := hbad
  exact hnone ((h _ _ _ _ _ _ c hrun).reports.mem hsent)

end MessageHandler

end CloudEdgePush.Client
