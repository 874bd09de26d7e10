import Mathlib.Data.List.Infix
import CloudEdgePush.Lib.Fifo
import CloudEdgePush.Client.Queue

/-!
# The write queue over connections

`startWrite` appends to `_writeMsgs`, `handleWrite` pops the front when it is written, and
`doClose` drops what is left.  As long as connects overlap neither each other nor a session, and
operations on a closed socket are over before anything else runs, the queue of one session is
gone before the next one begins (`WriteControl`); so the frames started on a connection are the
first of the messages accepted on it (`WriteLog`).  What the environment does keeps both.
-/

namespace CloudEdgePush.Client.IoLoop

open CloudEdgePush.Lib CloudEdgePush.Lib.Bytes CloudEdgePush.Lib.Transition
open CloudEdgePush.Lib.EventLoop CloudEdgePush.Lib.Fifo TcpClientImpl

variable {σ : Type}

def pendingWrites (s : IoLoop σ) : Nat := s.link.writes.length + s.queue.countP Ready.isWrite

def acceptedOn (s : IoLoop σ) (connection : Nat) : List TcpMessage :=
  tagged connection s.state.accepted

def startedOn (s : IoLoop σ) (connection : Nat) : List Bytes := tagged connection s.link.started

/-- Neither runs a handler nor is a connect over while the socket is closed and an operation on it
is not over. -/
def ClosedSocketFirst (s : IoLoop σ) : Event → Prop
  | .run => s.link.isOpen = false → s.link.reads = [] ∧ s.link.writes = []
  | .env (.connectDone _) => s.link.isOpen = false → s.link.reads = [] ∧ s.link.writes = []
  | .env _ => True

instance (s : IoLoop σ) : ∀ e : Event, Decidable (ClosedSocketFirst s e)
  | .run => inferInstanceAs (Decidable (_ → _ ∧ _))
  | .env (.connectDone _) => inferInstanceAs (Decidable (_ → _ ∧ _))
  | .env (.tick _) | .env (.arrive _) | .env (.readDone _ _) | .env (.writeDone _ _)
  | .env (.heartbeatDue _) | .env (.reconnectDue _) | .env (.write _) | .env .close => isTrue trivial

/-- While a session runs, the handler that runs next is not `doReconnect`. -/
def ReconnectsApart (s : IoLoop σ) : Event → Prop
  | .run => s.link.stopped = false → ∀ r ∈ s.queue.head?, r.isReconnect = false
  | .env _ => True

instance (s : IoLoop σ) : ∀ e : Event, Decidable (ReconnectsApart s e)
  | .run => inferInstanceAs (Decidable (_ → ∀ r ∈ s.queue.head?, _))
  | .env _ => isTrue trivial

structure ConnectsApart (s : IoLoop σ) : Prop where
  single : s.connecting ≤ 1
  running : s.link.stopped = false → s.connecting = 0

/-- What is left of a session that has ended is dropped before the next connect is over, and no
write of it is pending then. -/
structure WriteControl (s : IoLoop σ) : Prop where
  socket : 0 < s.link.connects → s.link.isOpen = false
  closing : s.link.stopped = false → s.link.closed = true → ∃ r ∈ s.queue, r.isClose = true
  leftover : s.link.stopped = true → s.link.writeMsgs ≠ [] →
    (∃ r ∈ s.queue, r.isClose = true) ∧
      Leads (fun r : Ready => r.isClose = true) (fun r => r.isConnect = true) s.queue
  finished : (∃ r ∈ s.queue, r.isConnect = true) → s.link.writes = []
  behind : s.queue.Pairwise fun r later => r.isConnect = true → later.isWrite = false

/-- The front of `_writeMsgs` is being written, on the connection on which all of them were
accepted. -/
structure WriteLog (s : IoLoop σ) : Prop where
  single : s.pendingWrites ≤ 1
  accepted : ∀ entry ∈ s.state.accepted, entry.1 ≤ s.link.connection
  started : ∀ entry ∈ s.link.started, entry.1 ≤ s.link.connection
  fresh : (∃ r ∈ s.queue, r.isConnect = true) → s.link.isOpen = true →
    s.acceptedOn s.link.connection = [] ∧ s.startedOn s.link.connection = []
  session : s.link.stopped = false →
    s.pendingWrites = (s.link.writeMsgs.take 1).length ∧
      InFlight ((s.acceptedOn s.link.connection).map writeBuffer)
        (s.startedOn s.link.connection) (s.link.writeMsgs.map writeBuffer)
  prefixes : ∀ connection,
    s.startedOn connection <+: (s.acceptedOn connection).map writeBuffer

variable {s s' : IoLoop σ}

/-! ## Connects and sessions -/

theorem ConnectsApart.ofOutcome {bus : Bus σ} (h : ConnectsApart s) (hsingle : s'.connecting ≤ 1)
    (hreconnect : ReconnectsApart s .run) (hstep : step bus s .run = some s') :
    ConnectsApart s' := by
  obtain ⟨r, rest, posted, hturn, houtcome⟩ := outcome_of_step hstep
  generalize hl : s'.link = l at houtcome
  have hended (hstopped : l.stopped = true) : ConnectsApart s' := by
    refine ⟨hsingle, fun hrun => ?_⟩
    rw [hl, hstopped] at hrun
    cases hrun
  have hgoesOn (hneeds : r.needsSession = true) (hrunning : s.link.stopped = false)
      (hconnects : l.connects = s.link.connects) : ConnectsApart s' := by
    have hsame : s'.link.connects = s.link.connects := (congrArg Link.connects hl).trans hconnects
    have hcounts := (hturn.counts hneeds).2
    have hnone := h.running hrunning
    exact ⟨hsingle, fun _ => by omega⟩
  cases houtcome with
  | connected op msgs hopen hop =>
      have hconnects : s'.link.connects = s.link.connects := (congrArg Link.connects hl).trans rfl
      have hone := h.single
      rw [hturn.connecting_before, if_pos (show Ready.isConnect _ = true from rfl)] at hone
      refine ⟨hsingle, fun _ => ?_⟩
      rw [hturn.connecting_after]
      omega
  | connectFailed ec msgs hfailed =>
      obtain ⟨_, _, _, hlost⟩ := Link.onlyReconnects_lost { s.state.client.link with isOpen := false }
      exact hended (congrArg Link.stopped hlost)
  | ignored r hneeds hstopped => exact hended hstopped
  | lost r reads msgs hrunning hlost =>
      obtain ⟨_, _, _, hlink⟩ :=
        Link.onlyReconnects_lost { s.link with reads := s.state.client.io.reads ++ reads }
      exact hended (congrArg Link.stopped hlink)
  | heartbeatLost hrunning hmissed =>
      obtain ⟨_, _, _, hlink⟩ :=
        Link.onlyReconnects_startReconnect { s.link with closed := true }
      exact hgoesOn rfl hrunning ((congrArg Link.connects hlink).trans rfl)
  | beat msgs hrunning hmissed => exact hgoesOn rfl hrunning rfl
  | read op next msgs hrunning hlost hnext => exact hgoesOn rfl hrunning rfl
  | written op hrunning =>
      obtain ⟨_, _, _, hlink⟩ := Link.onlyWrites_written s.state.client.link
      exact hgoesOn rfl hrunning ((congrArg Link.connects hlink).trans rfl)
  | accepted msg hrunning =>
      obtain ⟨_, _, _, hlink⟩ := Link.onlyWrites_accept s.state.client.link msg
      exact hgoesOn rfl hrunning ((congrArg Link.connects hlink).trans rfl)
  | closed msgs => exact hended rfl
  | reconnect =>
      refine hended ?_
      change s.link.stopped = true
      by_contra hrun
      have hfront := hreconnect (by simpa using hrun) .doReconnect (by simp [hturn.queue])
      cases hfront

theorem ConnectsApart.next {bus : Bus σ} {e : Event} (h : ConnectsApart s)
    (hsingle : s'.connecting ≤ 1) (hreconnect : ReconnectsApart s e)
    (hstep : step bus s e = some s') : ConnectsApart s' := by
  cases e with
  | run => exact h.ofOutcome hsingle hreconnect hstep
  | env e =>
      obtain ⟨hstopped, hconnecting⟩ := same_of_progress hstep
      refine ⟨hsingle, ?_⟩
      rw [hstopped, hconnecting]
      exact h.running

/-! ## The environment -/

theorem WriteLog.ofSame (h : WriteLog s) (haccepted : s'.state.accepted = s.state.accepted)
    (hstarted : s'.link.started = s.link.started)
    (hconnection : s'.link.connection = s.link.connection)
    (hpending : s'.pendingWrites ≤ s.pendingWrites)
    (hsession : s'.link.stopped = false → s.link.stopped = false ∧
      s'.pendingWrites = s.pendingWrites ∧ s'.link.writeMsgs = s.link.writeMsgs)
    (hfresh : (∃ r ∈ s'.queue, r.isConnect = true) → s'.link.isOpen = true →
      (∃ r ∈ s.queue, r.isConnect = true) ∧ s.link.isOpen = true) : WriteLog s' := by
  have hon (connection : Nat) : s'.acceptedOn connection = s.acceptedOn connection := by
    rw [acceptedOn, haccepted, acceptedOn]
  have hfrom (connection : Nat) : s'.startedOn connection = s.startedOn connection := by
    rw [startedOn, hstarted, startedOn]
  refine ⟨hpending.trans h.single, ?_, ?_, ?_, ?_, ?_⟩
  · rw [haccepted, hconnection]
    exact h.accepted
  · rw [hstarted, hconnection]
    exact h.started
  · rw [hconnection, hon, hfrom]
    intro hconnect hopen
    obtain ⟨hconnect', hopen'⟩ := hfresh hconnect hopen
    exact h.fresh hconnect' hopen'
  · rw [hconnection, hon, hfrom]
    intro hrunning
    obtain ⟨hrunning', hsame, hmsgs⟩ := hsession hrunning
    rw [hsame, hmsgs]
    exact h.session hrunning'
  · intro connection
    rw [hon, hfrom]
    exact h.prefixes connection

theorem WriteControl.becameReady (h : WriteControl s) {ready : List Ready}
    (hqueue : s'.queue = s.queue ++ ready) (hstopped : s'.link.stopped = s.link.stopped)
    (hmsgs : s'.link.writeMsgs = s.link.writeMsgs)
    (hsocket : 0 < s'.link.connects → s'.link.isOpen = false)
    (hclosing : s'.link.stopped = false → s'.link.closed = true → ∃ r ∈ s'.queue, r.isClose = true)
    (hfinished : (∃ r ∈ s'.queue, r.isConnect = true) → s'.link.writes = [])
    (hready : ready.Pairwise fun r later => r.isConnect = true → later.isWrite = false)
    (hbehind : (∃ r ∈ s.queue, r.isConnect = true) → ∀ later ∈ ready, later.isWrite = false) :
    WriteControl s' := by
  refine ⟨hsocket, hclosing, ?_, hfinished, ?_⟩
  · rw [hstopped, hmsgs, hqueue]
    intro hended hleft
    obtain ⟨⟨r, hr, hclose⟩, hleads⟩ := h.leftover hended hleft
    exact ⟨⟨r, List.mem_append_left _ hr, hclose⟩, hleads.append ⟨r, hr, hclose⟩⟩
  · rw [hqueue]
    refine List.pairwise_append.mpr ⟨h.behind, hready, ?_⟩
    intro r hr later hlater hconnect
    exact hbehind ⟨r, hr, hconnect⟩ later hlater

theorem WriteControl.quietProgress (h : WriteControl s) {ready : List Ready}
    (hqueue : s'.queue = s.queue ++ ready) (hstopped : s'.link.stopped = s.link.stopped)
    (hmsgs : s'.link.writeMsgs = s.link.writeMsgs)
    (hconnects : s'.link.connects = s.link.connects) (hopen : s'.link.isOpen = s.link.isOpen)
    (hwrites : s'.link.writes = s.link.writes)
    (hclosing : s'.link.stopped = false → s'.link.closed = true → ∃ r ∈ s'.queue, r.isClose = true)
    (hready : ∀ r ∈ ready, r.isConnect = false ∧ r.isWrite = false) : WriteControl s' := by
  refine h.becameReady hqueue hstopped hmsgs ?_ hclosing ?_ ?_ fun _ r hr => (hready r hr).2
  · rw [hconnects, hopen]
    exact h.socket
  · rw [hqueue, hwrites]
    rintro ⟨r, hr, hconnect⟩
    rcases List.mem_append.mp hr with hold | hnew
    · exact h.finished ⟨r, hold, hconnect⟩
    · rw [(hready r hnew).1] at hconnect
      cases hconnect
  · exact List.pairwise_of_forall_mem_list fun _ _ later hlater _ => (hready later hlater).2

theorem ConnectsApart.ended (hapart : ConnectsApart s) (hconnecting : 0 < s.connecting) :
    s.link.stopped = true := by
  by_contra hrunning
  have hnone := hapart.running (by simpa using hrunning)
  omega

/-- A connect is over: the session before it has ended, and no write of it is outstanding. -/
theorem WriteControl.connectDone {ec : Bool} (h : WriteControl s) (hapart : ConnectsApart s)
    (hqueue : s'.queue = s.queue ++ [.handleConnect ec]) (hconnects : 0 < s.link.connects)
    (hwrites : s.link.writes = []) (hstopped : s'.link.stopped = s.link.stopped)
    (hmsgs : s'.link.writeMsgs = s.link.writeMsgs)
    (hconnects' : s'.link.connects = s.link.connects - 1)
    (hwrites' : s'.link.writes = s.link.writes) : WriteControl s' := by
  have hone := hapart.single
  unfold connecting at hone
  refine h.becameReady hqueue hstopped hmsgs (fun hpos => ?_) (fun hrunning => ?_)
    (fun _ => hwrites'.trans hwrites) (List.pairwise_singleton _ _) ?_
  · omega
  · rw [hstopped, hapart.ended (by unfold connecting; omega)] at hrunning
    cases hrunning
  · rintro - later hlater
    obtain rfl := List.mem_singleton.mp hlater
    rfl

theorem WriteLog.connected (h : WriteLog s) (hapart : ConnectsApart s)
    (hqueue : s'.queue = s.queue ++ [.handleConnect false]) (hconnects : 0 < s.link.connects)
    (haccepted : s'.state.accepted = s.state.accepted)
    (hstarted : s'.link.started = s.link.started) (hwrites : s'.link.writes = s.link.writes)
    (hstopped : s'.link.stopped = s.link.stopped)
    (hconnection : s'.link.connection = s.link.connection + 1) : WriteLog s' := by
  have hpending : s'.pendingWrites = s.pendingWrites := by
    simp [pendingWrites, hqueue, hwrites, Ready.isWrite]
  refine ⟨hpending.trans_le h.single, ?_, ?_, fun _ _ => ⟨?_, ?_⟩, fun hrunning => ?_, ?_⟩
  · rw [haccepted, hconnection]
    exact fun entry hentry => Nat.le_succ_of_le (h.accepted entry hentry)
  · rw [hstarted, hconnection]
    exact fun entry hentry => Nat.le_succ_of_le (h.started entry hentry)
  · rw [acceptedOn, haccepted, hconnection]
    exact tagged_eq_nil fun entry hentry => (Nat.lt_succ_of_le (h.accepted entry hentry)).ne
  · rw [startedOn, hstarted, hconnection]
    exact tagged_eq_nil fun entry hentry => (Nat.lt_succ_of_le (h.started entry hentry)).ne
  · rw [hstopped, hapart.ended (by unfold connecting; omega)] at hrunning
    cases hrunning
  · unfold acceptedOn startedOn
    rw [haccepted, hstarted]
    exact h.prefixes

theorem WriteLog.quietProgress (h : WriteLog s) {ready : List Ready}
    (hqueue : s'.queue = s.queue ++ ready) (haccepted : s'.state.accepted = s.state.accepted)
    (hstarted : s'.link.started = s.link.started)
    (hconnection : s'.link.connection = s.link.connection)
    (hstopped : s'.link.stopped = s.link.stopped) (hmsgs : s'.link.writeMsgs = s.link.writeMsgs)
    (hopen : s'.link.isOpen = s.link.isOpen) (hwrites : s'.link.writes = s.link.writes)
    (hready : ∀ r ∈ ready, r.isConnect = false ∧ r.isWrite = false) : WriteLog s' := by
  have hcount : ready.countP Ready.isWrite = 0 :=
    List.countP_eq_zero.mpr fun r hr => by simp [hready r hr]
  have hpending : s'.pendingWrites = s.pendingWrites := by
    simp [pendingWrites, hqueue, hwrites, hcount]
  refine h.ofSame haccepted hstarted hconnection hpending.le (fun hrunning => ?_) ?_
  · exact ⟨hstopped.symm.trans hrunning, hpending, hmsgs⟩
  · rw [hqueue, hopen]
    rintro ⟨r, hr, hconnect⟩ hopen'
    rcases List.mem_append.mp hr with hold | hnew
    · exact ⟨⟨r, hold, hconnect⟩, hopen'⟩
    · rw [(hready r hnew).1] at hconnect
      cases hconnect

theorem writer_writeDone (hcontrol : WriteControl s) (hlog : WriteLog s) {i : Nat} {op : WriteOp}
    {ec : Bool} (hop : s.link.writes[i]? = some op)
    (hqueue : s'.queue = s.queue ++ [.handleWrite op ec])
    (haccepted : s'.state.accepted = s.state.accepted)
    (hl : s'.link = { s.link with writes := s.link.writes.eraseIdx i })
    (hclosing : s'.link.stopped = false → s'.link.closed = true →
      ∃ r ∈ s'.queue, r.isClose = true) : WriteControl s' ∧ WriteLog s' := by
  have hkept {α : Type} (field : Link → α)
      (hsame : field { s.link with writes := s.link.writes.eraseIdx i } = field s.link) :
      field s'.link = field s.link := (congrArg field hl).trans hsame
  have hlt : i < s.link.writes.length := (List.getElem?_eq_some_iff.mp hop).1
  have hwrites : s'.link.writes = s.link.writes.eraseIdx i := (congrArg Link.writes hl).trans rfl
  have hpending : s'.pendingWrites = s.pendingWrites := by
    simp only [pendingWrites, hqueue, hwrites, List.length_eraseIdx_of_lt hlt, List.countP_append,
      List.countP_singleton, Ready.isWrite, if_true]
    omega
  have hconnect : ¬∃ r ∈ s.queue, r.isConnect = true := by
    intro hconnect
    rw [hcontrol.finished hconnect] at hlt
    cases hlt
  have hqueued : ¬∃ r ∈ s'.queue, r.isConnect = true := by
    rw [hqueue]
    simpa [Ready.isConnect] using hconnect
  constructor
  · refine hcontrol.becameReady hqueue (hkept _ rfl) (hkept _ rfl) ?_ hclosing
      (fun h => absurd h hqueued) (List.pairwise_singleton _ _) fun h => absurd h hconnect
    rw [hkept Link.connects rfl, hkept Link.isOpen rfl]
    exact hcontrol.socket
  · refine hlog.ofSame haccepted (hkept _ rfl) (hkept _ rfl) hpending.le (fun hrunning => ?_)
      fun h => absurd h hqueued
    exact ⟨(hkept Link.stopped rfl).symm.trans hrunning, hpending, hkept _ rfl⟩

theorem writer_ofProgress {bus : Bus σ} {e : Occurrence} (hcontrol : WriteControl s)
    (hlog : WriteLog s) (hapart : ConnectsApart s) (hprompt : ClosedSocketFirst s (.env e))
    (hstep : step bus s (.env e) = some s') : WriteControl s' ∧ WriteLog s' := by
  obtain ⟨ready, hprogress, hqueue, haccepted⟩ := progress_of_step hstep
  obtain ⟨hstopped, -⟩ := same_of_progress hstep
  generalize hl : s'.link = l at hprogress
  have hkept {α : Type} (field : Link → α) (hsame : field l = field s.link) :
      field s'.link = field s.link := (congrArg field hl).trans hsame
  have hquiet (hready : ∀ r ∈ ready, r.isConnect = false ∧ r.isWrite = false)
      (hmsgs : l.writeMsgs = s.link.writeMsgs)
      (hconnects : l.connects = s.link.connects) (hopen : l.isOpen = s.link.isOpen)
      (hwrites : l.writes = s.link.writes) (hstarted : l.started = s.link.started)
      (hconnection : l.connection = s.link.connection)
      (hclosing : s'.link.stopped = false → s'.link.closed = true →
        ∃ r ∈ s'.queue, r.isClose = true) : WriteControl s' ∧ WriteLog s' := by
    exact ⟨hcontrol.quietProgress hqueue hstopped (hkept _ hmsgs) (hkept _ hconnects)
      (hkept _ hopen) (hkept _ hwrites) hclosing hready,
      hlog.quietProgress hqueue haccepted (hkept _ hstarted) (hkept _ hconnection) hstopped
        (hkept _ hmsgs) (hkept _ hopen) (hkept _ hwrites) hready⟩
  have hclosing (hclosed : l.closed = s.link.closed) (hrunning : s'.link.stopped = false)
      (hclosed' : s'.link.closed = true) : ∃ r ∈ s'.queue, r.isClose = true := by
    rw [hstopped] at hrunning
    rw [hkept Link.closed hclosed] at hclosed'
    obtain ⟨r, hr, hclose⟩ := hcontrol.closing hrunning hclosed'
    rw [hqueue]
    exact ⟨r, List.mem_append_left _ hr, hclose⟩
  cases hprogress with
  | connected hconnects =>
      have hwrites : s.link.writes = [] := (hprompt (hcontrol.socket hconnects)).2
      have hconnects' : s'.link.connects = s.link.connects - 1 :=
        (congrArg Link.connects hl).trans rfl
      refine ⟨hcontrol.connectDone hapart hqueue hconnects hwrites hstopped (hkept _ rfl) hconnects'
        (hkept _ rfl), ?_⟩
      exact hlog.connected hapart hqueue hconnects haccepted (hkept _ rfl) (hkept _ rfl) hstopped
        ((congrArg Link.connection hl).trans rfl)
  | connectFailed hconnects =>
      have hclosed : s.link.isOpen = false := hcontrol.socket hconnects
      have hwrites : s.link.writes = [] := (hprompt hclosed).2
      have hconnects' : s'.link.connects = s.link.connects - 1 :=
        (congrArg Link.connects hl).trans rfl
      have hpending : s'.pendingWrites = s.pendingWrites := by
        simp [pendingWrites, hqueue, hkept Link.writes rfl, Ready.isWrite]
      refine ⟨hcontrol.connectDone hapart hqueue hconnects hwrites hstopped (hkept _ rfl) hconnects'
        (hkept _ rfl), ?_⟩
      refine hlog.ofSame haccepted (hkept _ rfl) (hkept _ rfl) hpending.le (fun hrunning => ?_)
        fun _ hopen => ?_
      · exact ⟨hstopped.symm.trans hrunning, hpending, hkept _ rfl⟩
      · rw [hkept Link.isOpen rfl, hclosed] at hopen
        cases hopen
  | writeDone i op ec hop =>
      exact writer_writeDone hcontrol hlog hop hqueue haccepted hl (hclosing rfl)
  | close =>
      refine hquiet (by simp) rfl rfl rfl rfl rfl rfl fun hrunning _ => ?_
      rw [hstopped] at hrunning
      rw [hqueue]
      exact Ready.exists_isClose (hcontrol.closing hrunning)
  | write msg msgs => exact hquiet (by simp) rfl rfl rfl rfl rfl rfl (hclosing rfl)
  | _ =>
      exact hquiet (by simp [Ready.isConnect, Ready.isWrite]) rfl rfl rfl rfl rfl rfl (hclosing rfl)

end CloudEdgePush.Client.IoLoop
