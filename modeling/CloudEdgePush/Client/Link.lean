import CloudEdgePush.Client.IoLoop

/-!
# What decides about connections

`Link` is the part of the client that decides about connections, the reconnect timer and the
write queue.  `Outcome` says what each handler can do to it and what the handler posts
(`outcome_handle`), `Progress` says the same for the environment (`progress_occurs`); a property
of the link is proved by cases on these two.
-/

namespace CloudEdgePush.Client

open CloudEdgePush.Lib CloudEdgePush.Lib.Bytes

def Trace.isConnect : Trace → Bool
  | .connectIssued => true
  | _ => false

def Trace.write? : Trace → Option (Nat × Bytes)
  | .writeIssued connection data => some (connection, data)
  | _ => none

structure Link where
  clientConfig : ClientConfig
  stopped : Bool
  closed : Bool
  reconnectFlag : Nat
  now : Nat
  connection : Nat
  isOpen : Bool
  connects : Nat
  reads : List ReadOp
  reconnectExpiry : Nat
  reconnectWaits : List Bool
  writeMsgs : List TcpMessage
  writes : List WriteOp
  /-- Number of connects started so far. -/
  issued : Nat
  /-- Connection and data of each write started so far. -/
  started : List (Nat × Bytes)

namespace Link

def armReconnectTimer (l : Link) : Link :=
  { l with
    reconnectExpiry := l.now + 1000 * l.clientConfig.reconnectInterval
    reconnectWaits := (l.reconnectWaits.map fun _ => true) ++ [false] }

/-- The reconnect timer is set when no reconnect is counted or the timer is expired. -/
def startReconnect (l : Link) : Link :=
  { (if l.reconnectFlag = 0 ∨ l.reconnectExpiry ≤ l.now then l.armReconnectTimer else l) with
    reconnectFlag := l.reconnectFlag + 1 }

def lost (l : Link) : Link :=
  if l.clientConfig.isReconnect then { l with stopped := true, closed := true }.startReconnect
  else { l with stopped := true, closed := true }

def doWrite (l : Link) (msg : TcpMessage) : Link :=
  { l with
    writes := l.writes ++ [⟨l.connection, TcpClientImpl.writeBuffer msg⟩]
    started := l.started ++ [(l.connection, TcpClientImpl.writeBuffer msg)] }

def accept (l : Link) (msg : TcpMessage) : Link :=
  match l.writeMsgs with
  | [] => { l with writeMsgs := [msg] }.doWrite msg
  | front :: rest => { l with writeMsgs := front :: rest ++ [msg] }

def written (l : Link) : Link :=
  match l.writeMsgs.tail with
  | [] => { l with writeMsgs := [] }
  | front :: rest => { l with writeMsgs := front :: rest }.doWrite front

def OnlyWrites (l l' : Link) : Prop :=
  ∃ writeMsgs writes started,
    l' = { l with writeMsgs := writeMsgs, writes := writes, started := started }

theorem onlyWrites_accept (l : Link) (msg : TcpMessage) : OnlyWrites l (l.accept msg) := by
  unfold accept
  split
  · exact ⟨_, _, _, rfl⟩
  · exact ⟨_, _, _, rfl⟩

theorem onlyWrites_written (l : Link) : OnlyWrites l l.written := by
  unfold written
  split
  · exact ⟨_, _, _, rfl⟩
  · exact ⟨_, _, _, rfl⟩

theorem lost_of_not_isReconnect {l : Link} (h : l.clientConfig.isReconnect = false) :
    l.lost = { l with stopped := true, closed := true } := by
  unfold lost
  rw [if_neg (by simp [h])]

theorem lost_of_isReconnect {l : Link} (h : l.clientConfig.isReconnect = true) :
    l.lost = { l with stopped := true, closed := true }.startReconnect := by
  unfold lost
  rw [if_pos h]

theorem startReconnect_of_arms {l : Link} (h : l.reconnectFlag = 0 ∨ l.reconnectExpiry ≤ l.now) :
    l.startReconnect = { l.armReconnectTimer with reconnectFlag := l.reconnectFlag + 1 } := by
  unfold startReconnect
  rw [if_pos h]

def OnlyReconnects (l l' : Link) : Prop :=
  ∃ reconnectFlag reconnectExpiry reconnectWaits,
    l' = { l with
      reconnectFlag := reconnectFlag
      reconnectExpiry := reconnectExpiry
      reconnectWaits := reconnectWaits }

theorem onlyReconnects_startReconnect (l : Link) : OnlyReconnects l l.startReconnect := by
  unfold startReconnect
  split
  · exact ⟨_, _, _, rfl⟩
  · exact ⟨_, _, _, rfl⟩

theorem onlyReconnects_lost (l : Link) :
    OnlyReconnects { l with stopped := true, closed := true } l.lost := by
  unfold lost
  split
  · exact onlyReconnects_startReconnect _
  · exact ⟨_, _, _, rfl⟩

theorem length_reconnectWaits_startReconnect (l : Link) :
    l.startReconnect.reconnectWaits.length = l.reconnectWaits.length +
      if l.reconnectFlag = 0 ∨ l.reconnectExpiry ≤ l.now then 1 else 0 := by
  unfold startReconnect
  dsimp only
  split
  · simp [armReconnectTimer]
  · rfl

theorem length_reconnectWaits_lost (l : Link) :
    l.lost.reconnectWaits.length = l.reconnectWaits.length +
      if l.clientConfig.isReconnect = true ∧ (l.reconnectFlag = 0 ∨ l.reconnectExpiry ≤ l.now) then 1
      else 0 := by
  unfold lost
  split
  · rename_i hconfig
    simp only [length_reconnectWaits_startReconnect, hconfig, true_and]
  · rename_i hconfig
    simp [hconfig]

theorem length_reconnectWaits_lost_le (l : Link) :
    l.lost.reconnectWaits.length ≤ l.reconnectWaits.length + 1 := by
  rw [length_reconnectWaits_lost]
  split
  · exact le_rfl
  · exact Nat.le_succ _

theorem startReconnect_of_not_arms {l : Link} (h : l.reconnectFlag ≠ 0)
    (hexpiry : l.now < l.reconnectExpiry) :
    l.startReconnect = { l with reconnectFlag := l.reconnectFlag + 1 } := by
  unfold startReconnect
  rw [if_neg (by omega)]

end Link

/-- The handlers that return at once when `_stopped` is set. -/
def Ready.needsSession : Ready → Bool
  | .handleRead _ _ => true
  | .handleWrite _ _ => true
  | .checkHeartbeat => true
  | .posted (.startWrite _) => true
  | _ => false

def writes (msgs : List TcpMessage) : List Posted := msgs.map .startWrite

def closing (closed : Bool) : List Posted := if closed then [] else [.doClose]

namespace TcpClientImpl

variable {σ : Type}

def link (c : TcpClientImpl σ) : Link where
  clientConfig := c.clientConfig
  stopped := c.stopped
  closed := c.closed
  reconnectFlag := c.reconnectFlag
  now := c.io.now
  connection := c.io.connection
  isOpen := c.io.isOpen
  connects := c.io.connects
  reads := c.io.reads
  reconnectExpiry := c.io.reconnectExpiry
  reconnectWaits := c.io.reconnectWaits
  writeMsgs := c.writeMsgs
  writes := c.io.writes
  issued := c.trace.countP Trace.isConnect
  started := c.trace.filterMap Trace.write?

/-! ## The actions -/

theorem link_log (c : TcpClientImpl σ) {t : Trace} (hconnect : t.isConnect = false)
    (hwrite : t.write? = none) : (c.log t).link = c.link := by
  simp [link, log, hconnect, hwrite]

/-- The subscribers of the bus can only post writes. -/
theorem sendMessage_spec (bus : Bus σ) (c : TcpClientImpl σ) (m : BusMessage) :
    (c.sendMessage bus m).link = c.link ∧ ∃ msgs : List TcpMessage,
      (c.sendMessage bus m).io.posted = c.io.posted ++ writes msgs := by
  have hconnects (n : Nat) (out : List TcpMessage) :
      (out.map (Trace.handed n)).countP Trace.isConnect = 0 := by
    simp [List.countP_eq_zero, Trace.isConnect]
  have hwrites (n : Nat) (out : List TcpMessage) :
      (out.map (Trace.handed n)).filterMap Trace.write? = [] := by
    simp [List.filterMap_eq_nil_iff, Trace.write?]
  rw [sendMessage_eq]
  constructor
  · have hwrite : (Trace.published c.io.connection m).write? = none := rfl
    simp [link, hconnects, hwrites, Trace.isConnect, hwrite]
  · dsimp only
    split
    · exact ⟨[], rfl⟩
    · exact ⟨(bus.deliver c.io.now m c.sub).2.map fillHead, by rw [writes, List.map_map]; rfl⟩

def StartsRead (c c' : TcpClientImpl σ) : Prop :=
  ∃ op : ReadOp, op.connection = c.io.connection ∧
    c'.link = { c.link with reads := c.io.reads ++ [op] } ∧ c'.io.posted = c.io.posted

theorem startsRead_asyncRead (c : TcpClientImpl σ) (offset length : Nat) (handler : ReadHandler) :
    StartsRead c (c.asyncRead offset length handler) :=
  ⟨⟨c.io.connection, offset, length, handler⟩, rfl, link_log _ rfl rfl, rfl⟩

theorem startsRead_startRead (c : TcpClientImpl σ) : StartsRead c c.startRead :=
  startsRead_asyncRead { c with rbuf := resize [] kTotalHeadLen.toNat 0 } 0 kTotalHeadLen.toNat
    .handleReadHeader

theorem startsRead_readRest (c : TcpClientImpl σ) (msg : TcpMessage) :
    StartsRead c ((c.readRest msg).noteHeartbeatRsp msg) := by
  have hread := startsRead_asyncRead
    { c with readMsg := msg, rbuf := resize c.rbuf msg.fullMsgLen.toNat 0 }
    kTotalHeadLen.toNat (msg.fullMsgLen - kTotalHeadLen).toNat .handleReadBody
  unfold noteHeartbeatRsp
  split
  · exact hread
  · exact hread

theorem link_doWrite (c : TcpClientImpl σ) (msg : TcpMessage) :
    (c.doWrite msg).link = c.link.doWrite msg := by
  simp [link, TcpClientImpl.doWrite, asyncWrite, log, Link.doWrite, Trace.isConnect, Trace.write?]

theorem link_asyncConnect (c : TcpClientImpl σ) :
    c.asyncConnect.link =
      { c.link with connects := c.io.connects + 1, isOpen := false, issued := c.link.issued + 1 } := by
  simp [link, asyncConnect, log, Trace.isConnect, Trace.write?]

theorem close_spec (c : TcpClientImpl σ) :
    c.close.link = { c.link with closed := true } ∧
      c.close.io.posted = c.io.posted ++ closing c.closed := by
  unfold close
  by_cases hclosed : c.closed = true
  · rw [if_pos hclosed, hclosed]
    refine ⟨?_, (List.append_nil _).symm⟩
    simp [link, hclosed]
  · rw [if_neg hclosed]
    simp only [closing, hclosed]
    exact ⟨rfl, rfl⟩

theorem startReconnect_spec (c : TcpClientImpl σ) :
    c.startReconnect.link = c.link.startReconnect ∧
      c.startReconnect.io.posted = c.io.posted := by
  unfold startReconnect Link.startReconnect
  by_cases hflag : c.reconnectFlag = 0
  · have harm : c.link.reconnectFlag = 0 ∨ c.link.reconnectExpiry ≤ c.link.now := .inl hflag
    rw [if_pos hflag, if_pos harm]
    exact ⟨rfl, rfl⟩
  · rw [if_neg hflag]
    by_cases hexpired : c.io.reconnectExpiry ≤ c.io.now
    · have harm : c.link.reconnectFlag = 0 ∨ c.link.reconnectExpiry ≤ c.link.now := .inr hexpired
      rw [if_pos hexpired, if_pos harm]
      exact ⟨rfl, rfl⟩
    · have hkeep : ¬(c.link.reconnectFlag = 0 ∨ c.link.reconnectExpiry ≤ c.link.now) :=
        not_or.mpr ⟨hflag, hexpired⟩
      rw [if_neg hexpired, if_neg hkeep]
      exact ⟨rfl, rfl⟩

theorem failSession_spec (c : TcpClientImpl σ) :
    c.failSession.link = c.link.lost ∧
      c.failSession.io.posted = c.io.posted ++ closing c.closed := by
  obtain ⟨hlink, hposted⟩ := close_spec c
  have hstop : ({ c.close with stopped := true } : TcpClientImpl σ).link =
      { c.link with stopped := true, closed := true } :=
    congrArg (fun l : Link => { l with stopped := true }) hlink
  have hconfig : c.close.clientConfig.isReconnect = c.link.clientConfig.isReconnect :=
    congrArg (fun l : Link => l.clientConfig.isReconnect) hlink
  obtain ⟨hreconnect, hsame⟩ := startReconnect_spec { c.close with stopped := true }
  unfold failSession Link.lost
  dsimp only
  rw [hconfig]
  split
  · exact ⟨hreconnect.trans (congrArg Link.startReconnect hstop), hsame.trans hposted⟩
  · exact ⟨hstop, hposted⟩

/-! ## The handlers -/

def losesSession (c : TcpClientImpl σ) : Ready → Bool
  | .handleRead op ec =>
      ec || (decide (op.handler = .handleReadHeader) && (retrieveHeader c.rbuf c.readMsg).2)
  | .handleWrite _ ec => ec
  | _ => false

theorem needsSession_of_losesSession {c : TcpClientImpl σ} {r : Ready}
    (h : c.losesSession r = true) : r.needsSession = true := by
  cases r with
  | handleRead op ec => rfl
  | handleWrite op ec => rfl
  | _ => cases h

/-- The server did not answer three heartbeats, and the next one is due. -/
def missesHeartbeat (c : TcpClientImpl σ) : Bool :=
  c.heartbeatExpired && !c.isRecvedHeartbeatRsp && decide (3 ≤ c.heartBeatLostTimes)

inductive Outcome (c : TcpClientImpl σ) : Ready → Link → List Posted → Prop
  | connected (op : ReadOp) (msgs : List TcpMessage) (hopen : c.io.isOpen = true)
      (hop : op.connection = c.io.connection) :
      Outcome c (.handleConnect false)
        { c.link with
          stopped := false, closed := false, reconnectFlag := 0, reads := c.io.reads ++ [op] }
        (writes msgs)
  | connectFailed (ec : Bool) (msgs : List TcpMessage) (hfailed : ec = true ∨ c.io.isOpen = false) :
      Outcome c (.handleConnect ec) { c.link with isOpen := false }.lost
        (closing c.closed ++ writes msgs)
  | ignored (r : Ready) (hneeds : r.needsSession = true) (hstopped : c.stopped = true) :
      Outcome c r c.link []
  | lost (r : Ready) (reads : List ReadOp) (msgs : List TcpMessage) (hrunning : c.stopped = false)
      (hlost : c.losesSession r = true) :
      Outcome c r { c.link with reads := c.io.reads ++ reads }.lost
        (writes msgs ++ closing c.closed)
  | heartbeatLost (hrunning : c.stopped = false) (hmissed : c.missesHeartbeat = true) :
      Outcome c .checkHeartbeat { c.link with closed := true }.startReconnect (closing c.closed)
  | beat (msgs : List TcpMessage) (hrunning : c.stopped = false)
      (hmissed : c.missesHeartbeat = false) : Outcome c .checkHeartbeat c.link (writes msgs)
  | read (op next : ReadOp) (msgs : List TcpMessage) (hrunning : c.stopped = false)
      (hlost : c.losesSession (.handleRead op false) = false)
      (hnext : next.connection = c.io.connection) :
      Outcome c (.handleRead op false) { c.link with reads := c.io.reads ++ [next] } (writes msgs)
  | written (op : WriteOp) (hrunning : c.stopped = false) :
      Outcome c (.handleWrite op false) c.link.written []
  | accepted (msg : TcpMessage) (hrunning : c.stopped = false) :
      Outcome c (.posted (.startWrite msg)) (c.link.accept msg) []
  | closed (msgs : List TcpMessage) :
      Outcome c (.posted .doClose) { c.link with stopped := true, isOpen := false, writeMsgs := [] }
        (writes msgs)
  | reconnect :
      Outcome c .doReconnect
        { c.link with connects := c.io.connects + 1, isOpen := false, issued := c.link.issued + 1 } []

section Handlers

variable (bus : Bus σ) {c : TcpClientImpl σ}

theorem handleConnectError_spec (hposted : c.io.posted = []) :
    (c.handleConnectError bus).link = c.link.lost ∧ ∃ msgs,
      (c.handleConnectError bus).io.posted = closing c.closed ++ writes msgs := by
  let d : TcpClientImpl σ := { c with stopped := true }
  obtain ⟨hclose, hclosing⟩ := close_spec d
  have hlost : d.close.link = { c.link with stopped := true, closed := true } := hclose
  have hd : d.io.posted = [] := hposted
  rw [hd, List.nil_append] at hclosing
  unfold handleConnectError Link.lost
  dsimp only
  cases hconfig : c.clientConfig.isReconnect with
  | true =>
      obtain ⟨hreconnect, hsame⟩ := startReconnect_spec d.close
      rw [hlost] at hreconnect
      simp only [link, hconfig] at hreconnect ⊢
      refine ⟨hreconnect, [], ?_⟩
      exact (hsame.trans hclosing).trans (List.append_nil _).symm
  | false =>
      obtain ⟨hsent, msgs, hmsgs⟩ := sendMessage_spec bus d.close .kMsgTcpSessionError
      rw [hclosing] at hmsgs
      simp only [link, hconfig] at hsent hlost ⊢
      exact ⟨hsent.trans hlost, msgs, hmsgs⟩

theorem outcome_handleConnect (hposted : c.io.posted = []) (ec : Bool) :
    Outcome c (.handleConnect ec) (c.handleConnect bus ec).link
      (c.handleConnect bus ec).io.posted := by
  unfold handleConnect
  by_cases hec : ec = true
  · rw [if_pos hec]
    have hclosed : ({ c with io.isOpen := false } : TcpClientImpl σ).io.posted = [] := hposted
    obtain ⟨hlink, msgs, hmsgs⟩ := handleConnectError_spec bus hclosed
    rw [hlink, hmsgs]
    exact .connectFailed ec msgs (.inl hec)
  · rw [if_neg hec]
    by_cases hopen : c.io.isOpen = true
    · rw [if_neg (by simp [hopen])]
      obtain rfl : ec = false := by simpa using hec
      let d : TcpClientImpl σ := { c with stopped := false, closed := false, reconnectFlag := 0 }
      obtain ⟨hsent, msgs, hmsgs⟩ := sendMessage_spec bus d .kMsgStart
      obtain ⟨op, hop, hread, hsame⟩ := startsRead_startRead (d.sendMessage bus .kMsgStart)
      have hd : d.io.posted = [] := hposted
      rw [hd, List.nil_append] at hmsgs
      have hconnection : op.connection = c.io.connection :=
        hop.trans (congrArg Link.connection hsent)
      have hreads : (d.sendMessage bus .kMsgStart).io.reads = c.io.reads :=
        congrArg Link.reads hsent
      have hconnected := Outcome.connected op msgs hopen hconnection
      rw [hsent, hreads] at hread
      rw [hmsgs] at hsame
      have hlink : d.link =
          { c.link with stopped := false, closed := false, reconnectFlag := 0 } := rfl
      rw [hlink] at hread
      rw [← hread, ← hsame] at hconnected
      exact hconnected
    · rw [if_pos (by simp [hopen])]
      obtain ⟨hlink, msgs, hmsgs⟩ := handleConnectError_spec bus hposted
      rw [hlink, hmsgs]
      have hsame : c.link = { c.link with isOpen := false } := by
        simp [link, hopen]
      rw [hsame]
      exact .connectFailed ec msgs (.inr (by simpa using hopen))

theorem outcome_unlessStopped (hposted : c.io.posted = []) {r : Ready} (hneeds : r.needsSession = true)
    {d : TcpClientImpl σ} (h : c.stopped = false → Outcome c r d.link d.io.posted) :
    Outcome c r (if c.stopped then c else d).link (if c.stopped then c else d).io.posted := by
  by_cases hstopped : c.stopped = true
  · rw [if_pos hstopped, hposted]
    exact .ignored r hneeds hstopped
  · rw [if_neg hstopped]
    exact h (by simpa using hstopped)

theorem outcome_failSession (hposted : c.io.posted = []) (hrunning : c.stopped = false) {r : Ready}
    (hlost : c.losesSession r = true) : Outcome c r c.failSession.link c.failSession.io.posted := by
  obtain ⟨hlink, hclosing⟩ := failSession_spec c
  have houtcome := Outcome.lost r [] [] hrunning hlost
  rw [List.append_nil] at houtcome
  rw [hposted] at hclosing
  rw [hlink, hclosing]
  exact houtcome

/-- The handler of a read or write, of which `d` is what it does when there is no error. -/
theorem outcome_unlessFailed (hposted : c.io.posted = []) {r : Ready}
    (hneeds : r.needsSession = true) {ec : Bool} (hlost : ec = true → c.losesSession r = true)
    {d : TcpClientImpl σ}
    (h : c.stopped = false → ec = false → Outcome c r d.link d.io.posted) :
    Outcome c r (if c.stopped then c else if ec then c.failSession else d).link
      (if c.stopped then c else if ec then c.failSession else d).io.posted := by
  apply outcome_unlessStopped hposted hneeds
  intro hrunning
  cases ec with
  | true =>
      rw [if_pos rfl]
      exact outcome_failSession hposted hrunning (hlost rfl)
  | false =>
      rw [if_neg Bool.false_ne_true]
      exact h hrunning rfl

theorem outcome_handleReadHeader (hposted : c.io.posted = []) (op : ReadOp)
    (hop : op.handler = .handleReadHeader) (ec : Bool) :
    Outcome c (.handleRead op ec) (c.handleReadHeader bus ec).link
      (c.handleReadHeader bus ec).io.posted := by
  unfold handleReadHeader
  apply outcome_unlessFailed hposted rfl
  · rintro rfl
    rfl
  · rintro hrunning rfl
    have hheader : c.losesSession (.handleRead op false) =
        (retrieveHeader c.rbuf c.readMsg).2 := by
      simp [losesSession, hop]
    generalize retrieveHeader c.rbuf c.readMsg = result at hheader
    obtain ⟨msg, headerError⟩ := result
    obtain ⟨next, hnext, hread, hsame⟩ := startsRead_readRest c msg
    let d : TcpClientImpl σ := (c.readRest msg).noteHeartbeatRsp msg
    obtain ⟨hsent, msgs, hmsgs⟩ := sendMessage_spec bus d (.kMsgReadHeader msg)
    have hlink : (d.sendMessage bus (.kMsgReadHeader msg)).link =
        { c.link with reads := c.io.reads ++ [next] } := hsent.trans hread
    have hd : d.io.posted = [] := hsame.trans hposted
    rw [hd, List.nil_append] at hmsgs
    dsimp only
    cases headerError with
    | true =>
        rw [if_pos rfl]
        obtain ⟨hfail, hclosing⟩ := failSession_spec (d.sendMessage bus (.kMsgReadHeader msg))
        have hclosed : (d.sendMessage bus (.kMsgReadHeader msg)).closed = c.closed :=
          congrArg Link.closed hlink
        rw [hmsgs, hclosed] at hclosing
        rw [hlink] at hfail
        rw [hfail, hclosing]
        exact .lost _ [next] msgs hrunning hheader
    | false =>
        rw [if_neg (by decide), hlink, hmsgs]
        exact .read op next msgs hrunning hheader hnext

theorem outcome_handleReadBody (hposted : c.io.posted = []) (op : ReadOp)
    (hop : op.handler = .handleReadBody) (ec : Bool) :
    Outcome c (.handleRead op ec) (c.handleReadBody bus ec).link
      (c.handleReadBody bus ec).io.posted := by
  unfold handleReadBody
  apply outcome_unlessFailed hposted rfl
  · rintro rfl
    rfl
  · rintro hrunning rfl
    have hkeeps : c.losesSession (.handleRead op false) = false := by
      simp [losesSession, hop]
    let d : TcpClientImpl σ := { c with readMsg := retrieveBody c.rbuf c.readMsg }
    obtain ⟨hsent, msgs, hmsgs⟩ := sendMessage_spec bus d (.kMsgReadBody d.readMsg)
    obtain ⟨next, hnext, hread, hsame⟩ :=
      startsRead_startRead (d.sendMessage bus (.kMsgReadBody d.readMsg))
    have hd : d.io.posted = [] := hposted
    rw [hd, List.nil_append] at hmsgs
    have hconnection : next.connection = c.io.connection :=
      hnext.trans (congrArg Link.connection hsent)
    have hreads : (d.sendMessage bus (.kMsgReadBody d.readMsg)).io.reads = c.io.reads :=
      congrArg Link.reads hsent
    have hlink : d.link = c.link := rfl
    rw [hsent, hreads, hlink] at hread
    rw [hmsgs] at hsame
    rw [hread, hsame]
    exact .read op next msgs hrunning hkeeps hconnection

theorem outcome_handleWrite (hposted : c.io.posted = []) (op : WriteOp) (ec : Bool) :
    Outcome c (.handleWrite op ec) (c.handleWrite ec).link (c.handleWrite ec).io.posted := by
  unfold handleWrite
  apply outcome_unlessFailed hposted rfl
  · rintro rfl
    rfl
  · rintro hrunning rfl
    have hwritten := Outcome.written op hrunning
    unfold Link.written at hwritten
    have hmsgs : c.link.writeMsgs = c.writeMsgs := rfl
    rw [hmsgs] at hwritten
    dsimp only
    cases hrest : c.writeMsgs.tail with
    | nil =>
        rw [hrest] at hwritten
        rw [← hposted] at hwritten
        exact hwritten
    | cons front rest =>
        rw [hrest] at hwritten
        dsimp only
        rw [link_doWrite]
        rw [← hposted] at hwritten
        exact hwritten

theorem outcome_startWrite (hposted : c.io.posted = []) (msg : TcpMessage) :
    Outcome c (.posted (.startWrite msg)) (c.startWrite msg).link
      (c.startWrite msg).io.posted := by
  unfold startWrite
  refine outcome_unlessStopped hposted rfl fun hrunning => ?_
  have haccepted := Outcome.accepted msg hrunning
  unfold Link.accept at haccepted
  have hmsgs : c.link.writeMsgs = c.writeMsgs := rfl
  rw [hmsgs] at haccepted
  dsimp only
  cases hqueue : c.writeMsgs with
  | nil =>
      rw [hqueue, ← hposted] at haccepted
      simp only [List.isEmpty_nil, Bool.not_true, List.nil_append, Bool.false_eq_true, if_false]
      rw [link_doWrite]
      exact haccepted
  | cons front rest =>
      rw [hqueue, ← hposted] at haccepted
      exact haccepted

theorem outcome_checkHeartbeat (hposted : c.io.posted = []) :
    Outcome c .checkHeartbeat (c.checkHeartbeat bus).link (c.checkHeartbeat bus).io.posted := by
  unfold checkHeartbeat
  refine outcome_unlessStopped hposted rfl fun hrunning => ?_
  by_cases hexpired : c.heartbeatExpired = true
  · rw [if_pos hexpired]
    unfold heartbeatTick
    by_cases hrsp : c.isRecvedHeartbeatRsp = true
    · rw [if_pos hrsp]
      obtain ⟨hsent, msgs, hmsgs⟩ := sendMessage_spec bus c .kMsgHeartbeatReq
      rw [hposted, List.nil_append] at hmsgs
      have hbeat := Outcome.beat (c := c) msgs hrunning (by simp [missesHeartbeat, hrsp])
      rw [← hsent, ← hmsgs] at hbeat
      exact hbeat
    · rw [if_neg hrsp]
      by_cases hlost : c.heartBeatLostTimes ≥ 3
      · rw [if_pos hlost]
        obtain ⟨hlink, hclosing⟩ := close_spec c
        obtain ⟨hreconnect, hsame⟩ := startReconnect_spec (c.close.setHeartbeatTimer none)
        have hset : (c.close.setHeartbeatTimer none).link = { c.link with closed := true } := hlink
        have hmissed : c.missesHeartbeat = true := by
          simp only [missesHeartbeat, hexpired, hrsp, decide_eq_true hlost]
          rfl
        have hheartbeat := Outcome.heartbeatLost hrunning hmissed
        rw [hset] at hreconnect
        rw [hposted, List.nil_append] at hclosing
        have hposts : (c.close.setHeartbeatTimer none).startReconnect.io.posted =
            closing c.closed := hsame.trans hclosing
        rw [← hreconnect, ← hposts] at hheartbeat
        exact hheartbeat
      · rw [if_neg hlost]
        let d : TcpClientImpl σ := { c with heartBeatLostTimes := c.heartBeatLostTimes + 1 }
        obtain ⟨hsent, msgs, hmsgs⟩ := sendMessage_spec bus d .kMsgHeartbeatReq
        have hd : d.io.posted = [] := hposted
        have hlink : d.link = c.link := rfl
        rw [hd, List.nil_append] at hmsgs
        have hbeat := Outcome.beat (c := c) msgs hrunning (by simp [missesHeartbeat, hlost])
        rw [← hlink, ← hsent, ← hmsgs] at hbeat
        exact hbeat
  · rw [if_neg hexpired]
    have hbeat := Outcome.beat (c := c) [] hrunning (by simp [missesHeartbeat, hexpired])
    rw [show writes [] = c.io.posted from hposted.symm] at hbeat
    exact hbeat

theorem outcome_handle (hposted : c.io.posted = []) (r : Ready) :
    Outcome c r (c.handle bus r).link (c.handle bus r).io.posted := by
  cases r with
  | handleConnect ec => exact outcome_handleConnect bus hposted ec
  | handleRead op ec =>
      cases hop : op.handler with
      | handleReadHeader =>
          have houtcome := outcome_handleReadHeader bus hposted op hop ec
          simpa only [handle, hop, completeRead] using houtcome
      | handleReadBody =>
          have houtcome := outcome_handleReadBody bus hposted op hop ec
          simpa only [handle, hop, completeRead] using houtcome
  | handleWrite op ec => exact outcome_handleWrite hposted op ec
  | checkHeartbeat => exact outcome_checkHeartbeat bus hposted
  | doReconnect =>
      have hreconnect := Outcome.reconnect (c := c)
      rw [← link_asyncConnect, ← hposted] at hreconnect
      exact hreconnect
  | posted p =>
      cases p with
      | startWrite msg => exact outcome_startWrite hposted msg
      | doClose =>
          obtain ⟨hsent, msgs, hmsgs⟩ := sendMessage_spec bus c .kMsgClose
          rw [hposted, List.nil_append] at hmsgs
          have hclosed := Outcome.closed (c := c) msgs
          rw [← hsent, ← hmsgs] at hclosed
          exact hclosed

end Handlers

/-! ## The environment -/

inductive Progress (c : TcpClientImpl σ) : Occurrence → Link → List Ready → Prop
  | tick (ms : Nat) : Progress c (.tick ms) { c.link with now := c.io.now + ms } []
  | arrive (chunk : Bytes) : Progress c (.arrive chunk) c.link []
  | connected (hconnects : 0 < c.io.connects) :
      Progress c (.connectDone false)
        { c.link with
          connects := c.io.connects - 1, connection := c.io.connection + 1, isOpen := true }
        [.handleConnect false]
  | connectFailed (hconnects : 0 < c.io.connects) :
      Progress c (.connectDone true) { c.link with connects := c.io.connects - 1 }
        [.handleConnect true]
  | readDone (i : Nat) (op : ReadOp) (ec : Bool) (hop : c.io.reads[i]? = some op) :
      Progress c (.readDone i ec) { c.link with reads := c.io.reads.eraseIdx i } [.handleRead op ec]
  | writeDone (i : Nat) (op : WriteOp) (ec : Bool) (hop : c.io.writes[i]? = some op) :
      Progress c (.writeDone i ec) { c.link with writes := c.io.writes.eraseIdx i }
        [.handleWrite op ec]
  | heartbeatDue (i : Nat) : Progress c (.heartbeatDue i) c.link [.checkHeartbeat]
  | reconnectDue (i : Nat) (aborted : Bool) (hwait : c.io.reconnectWaits[i]? = some aborted)
      (hdue : aborted = true ∨ c.io.reconnectExpiry ≤ c.io.now) :
      Progress c (.reconnectDue i)
        { c.link with reconnectWaits := c.io.reconnectWaits.eraseIdx i } [.doReconnect]
  | write (msg : TcpMessage) (msgs : List TcpMessage) :
      Progress c (.write msg) c.link ((writes msgs).map .posted)
  | close : Progress c .close { c.link with closed := true } ((closing c.closed).map .posted)

theorem write_spec (c : TcpClientImpl σ) (msg : TcpMessage) :
    (c.write msg).link = c.link ∧ ∃ msgs, (c.write msg).io.posted = c.io.posted ++ writes msgs := by
  have hlink : (c.log (.handed c.io.connection msg)).link = c.link := link_log c rfl rfl
  unfold write
  dsimp only
  split
  · exact ⟨hlink, [], (List.append_nil _).symm⟩
  · exact ⟨hlink, [fillHead msg], rfl⟩

theorem occurs_eq {c c' : TcpClientImpl σ} {e : Occurrence} {ready : List Ready}
    (hoccurs : IoClient.occurs c e = some (c', ready)) : ∃ closed rbuf io trace,
      c' = { c with closed := closed, rbuf := rbuf, io := io, trace := trace } := by
  cases e with
  | write msg =>
      obtain ⟨rfl, rfl⟩ := Prod.mk.inj (Option.some.inj hoccurs)
      unfold write
      dsimp only
      split
      · exact ⟨_, _, _, _, rfl⟩
      · exact ⟨_, _, _, _, rfl⟩
  | close =>
      obtain ⟨rfl, rfl⟩ := Prod.mk.inj (Option.some.inj hoccurs)
      unfold close
      split
      · exact ⟨_, _, _, _, rfl⟩
      · exact ⟨_, _, _, _, rfl⟩
  | tick ms =>
      obtain ⟨rfl, rfl⟩ := Prod.mk.inj (Option.some.inj hoccurs)
      exact ⟨_, _, _, _, rfl⟩
  | arrive chunk =>
      obtain ⟨-, heq⟩ := Option.ite_none_right_eq_some.mp hoccurs
      obtain ⟨rfl, rfl⟩ := Prod.mk.inj (Option.some.inj heq)
      exact ⟨_, _, _, _, rfl⟩
  | connectDone ec =>
      obtain ⟨-, heq⟩ := Option.ite_none_left_eq_some.mp hoccurs
      obtain ⟨rfl, rfl⟩ := Prod.mk.inj (Option.some.inj heq)
      cases ec with
      | true => exact ⟨_, _, _, _, rfl⟩
      | false => exact ⟨_, _, _, _, rfl⟩
  | readDone i ec =>
      simp only [IoClient.occurs] at hoccurs
      split at hoccurs
      · cases hoccurs
      · split at hoccurs
        · obtain ⟨rfl, rfl⟩ := Prod.mk.inj (Option.some.inj hoccurs)
          exact ⟨_, _, _, _, rfl⟩
        · obtain ⟨-, heq⟩ := Option.ite_none_right_eq_some.mp hoccurs
          obtain ⟨rfl, rfl⟩ := Prod.mk.inj (Option.some.inj heq)
          exact ⟨_, _, _, _, rfl⟩
  | _ =>
      simp only [IoClient.occurs] at hoccurs
      split at hoccurs
      · cases hoccurs
      · obtain ⟨-, heq⟩ := Option.ite_none_right_eq_some.mp hoccurs
        obtain ⟨rfl, rfl⟩ := Prod.mk.inj (Option.some.inj heq)
        exact ⟨_, _, _, _, rfl⟩

theorem progress_occurs {c c' : TcpClientImpl σ} {e : Occurrence} {ready : List Ready}
    (hposted : c.io.posted = []) (hoccurs : IoClient.occurs c e = some (c', ready)) :
    Progress c e c'.link (ready ++ c'.io.posted.map .posted) := by
  have hpure (d : TcpClientImpl σ) (ready : List Ready) (hd : d.io.posted = [])
      (h : Progress c e d.link ready) : Progress c e d.link (ready ++ d.io.posted.map .posted) := by
    rw [hd, List.map_nil, List.append_nil]
    exact h
  cases e with
  | tick ms =>
      obtain ⟨rfl, rfl⟩ := Prod.mk.inj (Option.some.inj hoccurs)
      exact hpure _ _ hposted (.tick ms)
  | arrive chunk =>
      obtain ⟨-, heq⟩ := Option.ite_none_right_eq_some.mp hoccurs
      obtain ⟨rfl, rfl⟩ := Prod.mk.inj (Option.some.inj heq)
      exact hpure _ _ hposted (.arrive chunk)
  | connectDone ec =>
      obtain ⟨hconnects, heq⟩ := Option.ite_none_left_eq_some.mp hoccurs
      have hconnects : 0 < c.io.connects := Nat.pos_of_ne_zero hconnects
      cases ec with
      | true =>
          obtain ⟨rfl, rfl⟩ := Prod.mk.inj (Option.some.inj heq)
          exact hpure _ _ hposted (.connectFailed hconnects)
      | false =>
          obtain ⟨rfl, rfl⟩ := Prod.mk.inj (Option.some.inj heq)
          exact hpure _ _ hposted (.connected hconnects)
  | readDone i ec =>
      simp only [IoClient.occurs] at hoccurs
      split at hoccurs
      · cases hoccurs
      · rename_i op hop
        cases ec with
        | true =>
            obtain ⟨rfl, rfl⟩ := Prod.mk.inj (Option.some.inj hoccurs)
            exact hpure _ _ hposted (.readDone i op true hop)
        | false =>
            obtain ⟨-, heq⟩ := Option.ite_none_right_eq_some.mp hoccurs
            obtain ⟨rfl, rfl⟩ := Prod.mk.inj (Option.some.inj heq)
            exact hpure _ _ hposted (.readDone i op false hop)
  | writeDone i ec =>
      simp only [IoClient.occurs] at hoccurs
      split at hoccurs
      · cases hoccurs
      · rename_i op hop
        obtain ⟨-, heq⟩ := Option.ite_none_right_eq_some.mp hoccurs
        obtain ⟨rfl, rfl⟩ := Prod.mk.inj (Option.some.inj heq)
        exact hpure _ _ hposted (.writeDone i op ec hop)
  | heartbeatDue i =>
      simp only [IoClient.occurs] at hoccurs
      split at hoccurs
      · cases hoccurs
      · obtain ⟨-, heq⟩ := Option.ite_none_right_eq_some.mp hoccurs
        obtain ⟨rfl, rfl⟩ := Prod.mk.inj (Option.some.inj heq)
        exact hpure _ _ hposted (.heartbeatDue i)
  | reconnectDue i =>
      simp only [IoClient.occurs] at hoccurs
      split at hoccurs
      · cases hoccurs
      · rename_i aborted hwait
        obtain ⟨hdue, heq⟩ := Option.ite_none_right_eq_some.mp hoccurs
        obtain ⟨rfl, rfl⟩ := Prod.mk.inj (Option.some.inj heq)
        exact hpure _ _ hposted (.reconnectDue i aborted hwait hdue)
  | write msg =>
      obtain ⟨rfl, rfl⟩ := Prod.mk.inj (Option.some.inj hoccurs)
      obtain ⟨hlink, msgs, hmsgs⟩ := write_spec c msg
      rw [hposted, List.nil_append] at hmsgs
      rw [hlink, hmsgs]
      exact .write msg msgs
  | close =>
      obtain ⟨rfl, rfl⟩ := Prod.mk.inj (Option.some.inj hoccurs)
      obtain ⟨hlink, hclosing⟩ := close_spec c
      rw [hposted, List.nil_append] at hclosing
      rw [hlink, hclosing]
      exact .close

end TcpClientImpl

end CloudEdgePush.Client
