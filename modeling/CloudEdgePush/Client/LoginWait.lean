import CloudEdgePush.Client.SyncWaitMsg
import CloudEdgePush.Client.Supervision

/-!
# The wait for the login response

`IoLoop` lets `SyncWaitMsg::wait` return at once.  Here the thread of the `io_context` stays in it:
a handler that calls `sendLoginReq` is cut in two, `handleUntilWait` and `handleAfterWait`, and in
between the environment goes on and handlers become ready, while none runs.  The login_req is one of
the handlers that do not run, and so is the one that would call `receive`.
-/

namespace CloudEdgePush.Client

open CloudEdgePush.Lib CloudEdgePush.Lib.Transition CloudEdgePush.Lib.EventLoop

/-- The client, the time until which its thread waits in `sendLoginReq`, and what the waits that
are over have returned. -/
structure LoginWait where
  loop : IoLoop MessageHandler
  deadline : Option Nat
  results : List Bool

namespace LoginWait

open TcpClientImpl IoLoop

variable (p : Platform) (transfers : Nat → Transfer)

def entersWait (c : TcpClientImpl MessageHandler) : Ready → Bool
  | .handleRead op ec =>
      !c.stopped && !ec && decide (op.handler = .handleReadBody) &&
        decide (kHeartRsp = (retrieveBody c.rbuf c.readMsg).msgType) && !c.sub.sent
  | _ => false

/-- `handleReadBody` up to the wait, in which `_waitingMsg` is set and `_ready` not yet. -/
def handleUntilWait (c : TcpClientImpl MessageHandler) : TcpClientImpl MessageHandler :=
  let msg := retrieveBody c.rbuf c.readMsg
  let d := { c with readMsg := msg }.sendMessage (MessageHandler.bus p transfers)
    (.kMsgReadBody msg)
  { d with sub := { d.sub with
      syncObject := { waitingMsg := kLoginRsp, ready := c.sub.syncObject.ready } } }

def handleAfterWait (c : TcpClientImpl MessageHandler) : TcpClientImpl MessageHandler :=
  { c with sub := { c.sub with syncObject := { c.sub.syncObject with ready := false } } }.startRead

inductive Event
  | io (e : IoLoop.Event)
  /-- The wait finds `_ready` set. -/
  | wake
  /-- The three seconds are over. -/
  | timeout
deriving DecidableEq, Repr

def finish (s : LoginWait) (result : Bool) : LoginWait :=
  let next := IoClient.flush (handleAfterWait s.loop.state.client) s.loop.state.accepted
  { loop := ⟨next.1, s.loop.queue ++ next.2⟩, deadline := none, results := s.results ++ [result] }

def step (s : LoginWait) : Event → Option LoginWait
  | .io (.env e) =>
      (IoLoop.step (MessageHandler.bus p transfers) s.loop (.env e)).map fun loop =>
        { s with loop := loop }
  | .io .run =>
      match s.deadline, s.loop.queue with
      | some _, _ | none, [] => none
      | none, r :: rest =>
          if entersWait s.loop.state.client r then
            let next := IoClient.flush (handleUntilWait p transfers s.loop.state.client)
              s.loop.state.accepted
            some { s with
              loop := ⟨next.1, rest ++ next.2⟩
              deadline := some (s.loop.state.client.io.now + 3000) }
          else
            (IoLoop.step (MessageHandler.bus p transfers) s.loop .run).map fun loop =>
              { s with loop := loop }
  | .wake =>
      if s.deadline.isSome && s.loop.state.client.sub.syncObject.ready then some (s.finish true)
      else none
  | .timeout =>
      match s.deadline with
      | none => none
      | some deadline =>
          if deadline ≤ s.loop.state.client.io.now then some (s.finish false) else none

def start (cfg : ClientConfig) (h : MessageHandler) : LoginWait := ⟨IoLoop.start cfg h, none, []⟩

def enter (s : LoginWait) (rest : List Ready) : LoginWait :=
  let next := IoClient.flush (handleUntilWait p transfers s.loop.state.client) s.loop.state.accepted
  { s with
    loop := ⟨next.1, rest ++ next.2⟩
    deadline := some (s.loop.state.client.io.now + 3000) }

inductive Stepped (s : LoginWait) : Event → LoginWait → Prop
  | env {e : Occurrence} {loop : IoLoop MessageHandler}
      (hloop : IoLoop.step (MessageHandler.bus p transfers) s.loop (.env e) = some loop) :
      Stepped s (.io (.env e)) { s with loop := loop }
  | run {r : Ready} {rest : List Ready} {loop : IoLoop MessageHandler} (hidle : s.deadline = none)
      (hqueue : s.loop.queue = r :: rest) (hpasses : entersWait s.loop.state.client r = false)
      (hloop : IoLoop.step (MessageHandler.bus p transfers) s.loop .run = some loop) :
      Stepped s (.io .run) { s with loop := loop }
  | enters {r : Ready} {rest : List Ready} (hidle : s.deadline = none)
      (hqueue : s.loop.queue = r :: rest) (henters : entersWait s.loop.state.client r = true) :
      Stepped s (.io .run) (s.enter p transfers rest)
  | wake (hwaits : s.deadline ≠ none) (hready : s.loop.state.client.sub.syncObject.ready = true) :
      Stepped s .wake (s.finish true)
  | timeout {deadline : Nat} (hwaits : s.deadline = some deadline)
      (hdue : deadline ≤ s.loop.state.client.io.now) : Stepped s .timeout (s.finish false)

theorem stepped_of_step {s s' : LoginWait} {e : Event} (hstep : step p transfers s e = some s') :
    Stepped p transfers s e s' := by
  cases e with
  | io e =>
      cases e with
      | env e =>
          obtain ⟨loop, hloop, rfl⟩ := Option.map_eq_some_iff.mp hstep
          exact .env hloop
      | run =>
          obtain ⟨loop, deadline, results⟩ := s
          cases deadline with
          | some deadline => cases hstep
          | none =>
              cases hqueue : loop.queue with
              | nil => simp [step, hqueue] at hstep
              | cons r rest =>
                  simp only [step, hqueue] at hstep
                  split at hstep
                  · rename_i henters
                    obtain rfl := Option.some.inj hstep
                    exact .enters rfl hqueue henters
                  · rename_i hpasses
                    obtain ⟨loop', hloop, rfl⟩ := Option.map_eq_some_iff.mp hstep
                    exact .run rfl hqueue (by simpa using hpasses) hloop
  | wake =>
      obtain ⟨hboth, heq⟩ := Option.ite_none_right_eq_some.mp hstep
      obtain ⟨hwaits, hready⟩ := Bool.and_eq_true_iff.mp hboth
      obtain rfl := Option.some.inj heq
      exact .wake (Option.isSome_iff_ne_none.mp hwaits) hready
  | timeout =>
      simp only [step] at hstep
      split at hstep
      · cases hstep
      · rename_i deadline hwaits
        obtain ⟨hdue, heq⟩ := Option.ite_none_right_eq_some.mp hstep
        obtain rfl := Option.some.inj heq
        exact .timeout hwaits hdue

def isLoginReq : Ready → Bool
  | .posted (.startWrite msg) => decide (msg.msgType = kLoginReq)
  | _ => false

/-- The thread does not wait while the login_req is in its queue, and no wait has timed out. -/
structure Answered (s : LoginWait) : Prop where
  sent : s.deadline ≠ none → ∀ r ∈ s.loop.queue, isLoginReq r = false
  results : ∀ result ∈ s.results, result = true

/-- The step does not enter the wait: it handles no heart_rsp body while `sent` is false. -/
def NoWait (s : LoginWait) (e : Event) : Prop :=
  e = .io .run → ∀ r ∈ s.loop.queue.head?, entersWait s.loop.state.client r = false

instance (s : LoginWait) (e : Event) : Decidable (NoWait s e) :=
  inferInstanceAs (Decidable (_ → _))

/-! ## The two halves of the handler -/

theorem entersWait_spec {c : TcpClientImpl MessageHandler} {r : Ready}
    (henters : entersWait c r = true) :
    (∃ op, r = .handleRead op false ∧ op.handler = .handleReadBody) ∧ c.stopped = false ∧
      kHeartRsp = (retrieveBody c.rbuf c.readMsg).msgType ∧ c.sub.sent = false := by
  cases r with
  | handleRead op ec =>
      simp only [entersWait, Bool.and_eq_true, Bool.not_eq_true', decide_eq_true_eq] at henters
      obtain ⟨⟨⟨⟨hrunning, rfl⟩, hop⟩, hmsg⟩, hsent⟩ := henters
      exact ⟨⟨op, rfl, hop⟩, hrunning, hmsg, hsent⟩
  | _ => cases henters

theorem deliver_heartRsp (now : Nat) {h : MessageHandler} {msg : TcpMessage}
    (hmsg : kHeartRsp = msg.msgType) (hsent : h.sent = false) :
    MessageHandler.deliver p transfers now (.kMsgReadBody msg) h =
      { h with sent := true }.sendLoginReq p now := by
  have hbody : MessageHandler.deliver p transfers now (.kMsgReadBody msg) h =
      h.onHeartRsp p now := if_pos hmsg
  rw [hbody, MessageHandler.onHeartRsp, hsent]
  rfl

/-- A wait in which nothing happens is the wait of `IoLoop`. -/
theorem handleAfterWait_handleUntilWait {c : TcpClientImpl MessageHandler} {r : Ready}
    (henters : entersWait c r = true) :
    handleAfterWait (handleUntilWait p transfers c) =
      c.handle (MessageHandler.bus p transfers) r := by
  obtain ⟨⟨op, rfl, hop⟩, hrunning, hmsg, hsent⟩ := entersWait_spec henters
  have hdeliver := deliver_heartRsp p transfers c.io.now hmsg hsent
  have hbus : (MessageHandler.bus p transfers).deliver = MessageHandler.deliver p transfers := rfl
  simp only [handle, hop, completeRead, handleReadBody]
  rw [if_neg (by simp [hrunning]), if_neg (by decide)]
  simp only [handleAfterWait, handleUntilWait, sendMessage_eq, hbus, hdeliver]
  rfl

theorem posted_handleUntilWait {c : TcpClientImpl MessageHandler} {r : Ready}
    (hposted : c.io.posted = []) (hstarted : c.stopped = false → c.sub.tcpSessionStarted = true)
    (henters : entersWait c r = true) : ∃ msg, msg.msgType = kLoginReq ∧
      (handleUntilWait p transfers c).io.posted = [.startWrite msg] := by
  obtain ⟨-, hrunning, hmsg, hsent⟩ := entersWait_spec henters
  have hdeliver := deliver_heartRsp p transfers c.io.now hmsg hsent
  have hbus : (MessageHandler.bus p transfers).deliver = MessageHandler.deliver p transfers := rfl
  have hout : ({ c.sub with sent := true }.sendLoginReq p c.io.now).2 =
      [{ msgType := kLoginReq
         body := MessageHandler.encodeLoginReq p c.io.now p.localIp c.sub.clientType }] :=
    if_pos (hstarted hrunning)
  simp only [handleUntilWait, sendMessage_eq, hbus, hdeliver, hout, hposted, hrunning]
  exact ⟨_, rfl, rfl⟩

/-! ## Running sessions are started -/

def Started (c : TcpClientImpl MessageHandler) : Prop :=
  c.stopped = false → c.sub.tcpSessionStarted = true

theorem started_handleReadBody {c : TcpClientImpl MessageHandler} (h : Started c) :
    Started (c.handleReadBody (MessageHandler.bus p transfers) false) := by
  unfold TcpClientImpl.handleReadBody
  dsimp only
  split
  · exact h
  · rename_i hrunning
    have hstarted := h (by simpa using hrunning)
    have hbody : BusMessage.kMsgReadBody (retrieveBody c.rbuf c.readMsg) ≠ .kMsgClose := nofun
    have hdeliver := MessageHandler.deliver_tcpSessionStarted p transfers c.io.now hbody hstarted
    rw [if_neg (by decide), sendMessage_eq]
    exact fun _ => hdeliver

theorem started_frame : Frame (MessageHandler.bus p transfers)
    (fun c c' => Started c → Started c') where
  refl _ := id
  trans h h' := h' ∘ h
  setIo _ _ _ _ := id
  setWriter _ _ _ := id
  setSession _ _ _ _ _ := id
  stop _ _ := nofun
  logConnect _ := id
  logWrite _ _ _ := id
  sendError c := ((MessageHandler.calm_frame p transfers).sendError c).started
  sendHeartbeat c := ((MessageHandler.calm_frame p transfers).sendHeartbeat c).started
  sendClose _ _ := nofun

theorem started_handle {c : TcpClientImpl MessageHandler} (h : Started c) (r : Ready) :
    Started (c.handle (MessageHandler.bus p transfers) r) := by
  apply (started_frame p transfers).handle _ _ _ c r h
  · exact fun c => (MessageHandler.calm_handleReadHeader p transfers c).started
  · exact fun c => started_handleReadBody p transfers
  · exact fun c hopen => (MessageHandler.calm_handleConnect p transfers hopen).started

/-! ## Runs -/

theorem started_env {s s' : IoLoop MessageHandler} {e : Occurrence}
    (h : Started s.state.client)
    (hstep : IoLoop.step (MessageHandler.bus p transfers) s (.env e) = some s') :
    Started s'.state.client := by
  obtain ⟨state, ready, henv, rfl⟩ := step_env_eq_some.mp hstep
  obtain ⟨⟨c, new⟩, hoccurs, heq⟩ := Option.map_eq_some_iff.mp henv
  obtain ⟨rfl, rfl⟩ := Prod.mk.inj heq
  have hsame := Unsupervised.occurs hoccurs
  exact fun hrunning => hsame.started (h (hsame.running hrunning))

structure NotWaited (s : LoginWait) : Prop where
  started : Started s.loop.state.client
  deadline : s.deadline = none
  results : s.results = []

theorem NotWaited.answered {s : LoginWait} (h : NotWaited s) : Answered s := by
  constructor
  · exact fun hwaits => absurd h.deadline hwaits
  · rw [h.results]
    exact nofun

theorem notWaited_step (s : LoginWait) (e : Event) (s' : LoginWait) (h : NotWaited s)
    (hguard : NoWait s e) (hstep : step p transfers s e = some s') : NotWaited s' := by
  cases stepped_of_step p transfers hstep with
  | env hloop => exact ⟨started_env p transfers h.started hloop, h.deadline, h.results⟩
  | run _ _ _ hloop =>
      obtain ⟨r, rest, -, rfl⟩ := step_run_eq_some.mp hloop
      exact ⟨started_handle p transfers h.started r, h.deadline, h.results⟩
  | enters _ hqueue henters =>
      have hpasses := hguard rfl _ (by rw [hqueue]; rfl)
      exact absurd (henters.symm.trans hpasses) (by decide)
  | wake hwaits _ => exact absurd h.deadline hwaits
  | timeout hwaits _ => cases h.deadline.symm.trans hwaits

theorem noWait_of_answered (s : LoginWait) (e : Event) (s' : LoginWait) (h : NotWaited s)
    (hstep : step p transfers s e = some s') (hanswered : Answered s') : NoWait s e := by
  rintro rfl r hr
  cases stepped_of_step p transfers hstep with
  | run _ hqueue hpasses _ =>
      rw [hqueue] at hr
      obtain rfl := Option.some.inj hr
      exact hpasses
  | enters _ hqueue henters =>
      obtain ⟨msg, hmsg, hposted⟩ := posted_handleUntilWait p transfers s.loop.state.posted
        h.started henters
      have hsent := hanswered.sent (by simp [enter]) (.posted (.startWrite msg))
        (by simp [enter, IoClient.flush, hposted])
      simp [isLoginReq, hmsg] at hsent

/-- In every run, in all states: the thread does not wait for login_rsp while the login_req is in
its queue, and no wait ends by its timeout, if and only if the wait is not entered at all. -/
theorem answered_iff (cfg : ClientConfig) (sysUpdateHandler : SysUpdateHandler)
    (fileInfos : Bytes) {es : List Event} {s : LoginWait}
    (hrun : run (step p transfers) (start cfg (MessageHandler.start cfg sysUpdateHandler fileInfos))
      es = some s) :
    (∀ before m, before <+: es →
        run (step p transfers) (start cfg (MessageHandler.start cfg sysUpdateHandler fileInfos))
          before = some m → Answered m) ↔
      AllSteps (step p transfers) NoWait
        (start cfg (MessageHandler.start cfg sysUpdateHandler fileInfos)) es := by
  have hinit (h : MessageHandler) : NotWaited (start cfg h) := ⟨nofun, rfl, rfl⟩
  exact prefixes_iff_of_guarded (notWaited_step p transfers) (fun _ h => h.answered)
    (noWait_of_answered p transfers) (hinit _) hrun

def sampleStart : LoginWait :=
  start sampleConfig (MessageHandler.start sampleConfig
    (SysUpdateHandler.start sampleConfig.httpServer ⟨fun _ => none⟩) [])

def heartRspRead : List Event :=
  [.io (.env (.connectDone false)), .io .run, .io .run,
    .io (.env (.arrive [1, 1, 1, 1, 18, 0, 0, 0, 0xDC, 7, 0, 0, 2, 0, 0, 0, 0x7b, 0x7d])),
    .io (.env (.readDone 0 false)), .io .run, .io (.env (.readDone 0 false))]

theorem answered_before_wait :
    ∃ s, run (step samplePlatform fun _ => ⟨true, 0, []⟩) sampleStart heartRspRead = some s ∧
      Answered s := by
  have hsteps : (run (step samplePlatform fun _ => ⟨true, 0, []⟩) sampleStart heartRspRead).isSome ∧
      AllSteps (step samplePlatform fun _ => ⟨true, 0, []⟩) NoWait sampleStart heartRspRead := by
    decide +kernel
  obtain ⟨s, hrun⟩ := Option.isSome_iff_exists.mp hsteps.1
  have hall := (answered_iff samplePlatform _ _ _ _ hrun).mpr hsteps.2
  exact ⟨s, hrun, hall _ s (List.prefix_refl _) hrun⟩

/-- The thread waits with the login_req in its queue, and after three seconds it goes on. -/
theorem waits_with_request_queued : ¬ ∀ (p : Platform) (transfers : Nat → Transfer)
    (cfg : ClientConfig) (sysUpdateHandler : SysUpdateHandler) (fileInfos : Bytes)
    (es : List Event) (s : LoginWait),
    run (step p transfers) (start cfg (MessageHandler.start cfg sysUpdateHandler fileInfos)) es =
      some s → Answered s := by
  intro h
  have hbad : ∃ s ∈ run (step samplePlatform fun _ => ⟨true, 0, []⟩) sampleStart
      (heartRspRead ++ [.io .run]), s.deadline ≠ none ∧
        ∃ r ∈ s.loop.queue, isLoginReq r = true := by
    decide +kernel
  obtain ⟨s, hrun, hwaits, r, hr, hlogin⟩ := hbad
  have hnone := (h _ _ _ _ _ _ s hrun).sent hwaits r hr
  exact absurd (hnone.symm.trans hlogin) (by decide)

/-! ## Every wait times out -/

def Unwaited (c : TcpClientImpl MessageHandler) : Prop :=
  c.sub.sent = false → c.sub.syncObject = {}

theorem unwaited_of_sub {c c' : TcpClientImpl MessageHandler} (h : Unwaited c)
    (hsub : c'.sub = c.sub) : Unwaited c' := by
  unfold Unwaited
  rw [hsub]
  exact h

/-- A login_rsp that nobody waits for is not kept. -/
theorem unwaited_onReadBody (now : Nat) {h : MessageHandler} {msg : TcpMessage}
    (hunwaited : h.sent = false → h.syncObject = {}) :
    (h.onReadBody p transfers now msg).1.sent = false →
      (h.onReadBody p transfers now msg).1.syncObject = {} := by
  unfold MessageHandler.onReadBody
  split
  · unfold MessageHandler.onHeartRsp
    split
    · exact hunwaited
    · nofun
  · split
    · intro hsent
      have hempty : h.syncObject = {} := hunwaited hsent
      simp only [MessageHandler.onLoginRsp, MessageHandler.startSendFileInfosTimer, hempty]
      rfl
    · split
      · unfold MessageHandler.onUpdateFileNtf
        split
        · exact hunwaited
        · split
          · exact hunwaited
          · exact hunwaited
          · exact hunwaited
      · exact hunwaited

theorem unwaited_frame : Frame (MessageHandler.bus p transfers)
    (fun c c' => Unwaited c → Unwaited c') where
  refl _ := id
  trans h h' := h' ∘ h
  setIo _ _ _ _ := id
  setWriter _ _ _ := id
  setSession _ _ _ _ _ := id
  stop _ := id
  logConnect _ := id
  logWrite _ _ _ := id
  sendError c h := by
    rw [sendMessage_eq]
    exact h
  sendHeartbeat c h := by
    rw [sendMessage_eq]
    exact h
  sendClose c h := by
    rw [sendMessage_eq]
    exact h

theorem unwaited_sendMessage {c : TcpClientImpl MessageHandler} (h : Unwaited c) {msg : BusMessage}
    (hsub : (MessageHandler.deliver p transfers c.io.now msg c.sub).1 = c.sub) :
    Unwaited (c.sendMessage (MessageHandler.bus p transfers) msg) := by
  apply unwaited_of_sub h
  rw [sendMessage_eq]
  exact hsub

theorem unwaited_handleReadBody {c : TcpClientImpl MessageHandler} (h : Unwaited c) :
    Unwaited (c.handleReadBody (MessageHandler.bus p transfers) false) := by
  unfold TcpClientImpl.handleReadBody
  dsimp only
  split
  · exact h
  · rw [if_neg (by decide), sendMessage_eq]
    exact unwaited_onReadBody p transfers c.io.now h

theorem unwaited_handle {c : TcpClientImpl MessageHandler} (h : Unwaited c) (r : Ready) :
    Unwaited (c.handle (MessageHandler.bus p transfers) r) := by
  have hframe := unwaited_frame p transfers
  apply hframe.handle _ _ _ c r h
  · apply hframe.handleReadHeader
    · exact fun c msg h => unwaited_of_sub h rfl
    · exact fun c msg h => unwaited_sendMessage p transfers h rfl
  · exact fun c h => unwaited_handleReadBody p transfers h
  · intro c hopen
    refine hframe.handleConnect_opened (fun c h => ?_) (fun c h => unwaited_of_sub h rfl) hopen
    rw [sendMessage_eq]
    exact h

theorem sub_enter (s : LoginWait) (rest : List Ready) :
    (s.enter p transfers rest).loop.state.client.sub =
      (handleUntilWait p transfers s.loop.state.client).sub := rfl

theorem sub_env {s s' : IoLoop MessageHandler} {e : Occurrence}
    (hstep : IoLoop.step (MessageHandler.bus p transfers) s (.env e) = some s') :
    s'.state.client.sub = s.state.client.sub := by
  obtain ⟨state, ready, henv, rfl⟩ := step_env_eq_some.mp hstep
  obtain ⟨⟨c, new⟩, hoccurs, heq⟩ := Option.map_eq_some_iff.mp henv
  obtain ⟨rfl, rfl⟩ := Prod.mk.inj heq
  obtain ⟨closed, rbuf, io, trace, rfl⟩ := occurs_eq hoccurs
  rfl

structure Unheard (s : LoginWait) : Prop where
  unwaited : Unwaited s.loop.state.client
  waiting : s.deadline ≠ none → s.loop.state.client.sub.syncObject.ready = false
  results : ∀ result ∈ s.results, result = false

theorem sent_handleUntilWait {c : TcpClientImpl MessageHandler} {r : Ready}
    (henters : entersWait c r = true) : (handleUntilWait p transfers c).sub.sent = true := by
  obtain ⟨-, -, hmsg, hsent⟩ := entersWait_spec henters
  have hdeliver := deliver_heartRsp p transfers c.io.now hmsg hsent
  have hbus : (MessageHandler.bus p transfers).deliver = MessageHandler.deliver p transfers := rfl
  simp only [handleUntilWait, sendMessage_eq, hbus, hdeliver]
  rfl

theorem unwaited_handleUntilWait {c : TcpClientImpl MessageHandler} (h : Unwaited c) {r : Ready}
    (henters : entersWait c r = true) :
    Unwaited (handleUntilWait p transfers c) ∧
      (handleUntilWait p transfers c).sub.syncObject.ready = false := by
  have hsent := sent_handleUntilWait p transfers henters
  have hempty := h (entersWait_spec henters).2.2.2
  exact ⟨fun hunsent => absurd (hsent.symm.trans hunsent) (by decide),
    congrArg SyncWaitMsg.ready hempty⟩

theorem unheard_timeout {s : LoginWait} (h : Unheard s) : Unheard (s.finish false) := by
  refine ⟨fun hunsent => ?_, fun hwaits => absurd rfl hwaits, ?_⟩
  · have hempty := h.unwaited hunsent
    have hfinished : (s.finish false).loop.state.client.sub.syncObject =
        { s.loop.state.client.sub.syncObject with ready := false } := rfl
    rw [hfinished, hempty]
  · intro result hresult
    rcases List.mem_append.mp hresult with hold | hnew
    · exact h.results result hold
    · exact List.mem_singleton.mp hnew

theorem unheard_step (s : LoginWait) (e : Event) (s' : LoginWait) (h : Unheard s)
    (hstep : step p transfers s e = some s') : Unheard s' := by
  cases stepped_of_step p transfers hstep with
  | env hloop =>
      have hsub := sub_env p transfers hloop
      refine ⟨unwaited_of_sub h.unwaited hsub, ?_, h.results⟩
      dsimp only
      rw [hsub]
      exact h.waiting
  | run hidle _ _ hloop =>
      obtain ⟨r, rest, -, rfl⟩ := step_run_eq_some.mp hloop
      exact ⟨unwaited_handle p transfers h.unwaited r, fun hwaits => absurd hidle hwaits, h.results⟩
  | enters _ _ henters =>
      obtain ⟨hunwaited, hready⟩ := unwaited_handleUntilWait p transfers h.unwaited henters
      refine ⟨unwaited_of_sub hunwaited (sub_enter p transfers s _), fun _ => ?_, h.results⟩
      rw [sub_enter]
      exact hready
  | wake hwaits hready => exact absurd ((h.waiting hwaits).symm.trans hready) (by decide)
  | timeout _ _ => exact unheard_timeout h

/-- In every run every wait for login_rsp is ended by its timeout. -/
theorem results_run (cfg : ClientConfig) (sysUpdateHandler : SysUpdateHandler)
    (fileInfos : Bytes) {es : List Event} {s : LoginWait}
    (hrun : run (step p transfers) (start cfg (MessageHandler.start cfg sysUpdateHandler fileInfos))
      es = some s) : ∀ result ∈ s.results, result = false := by
  have hinit : Unheard (start cfg (MessageHandler.start cfg sysUpdateHandler fileInfos)) :=
    ⟨fun _ => rfl, fun hwaits => absurd rfl hwaits, nofun⟩
  exact (run_invariant (unheard_step p transfers) hinit hrun).results

end LoginWait

end CloudEdgePush.Client
