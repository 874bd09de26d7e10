import CloudEdgePush.Client.ReadCycle
import CloudEdgePush.Client.WriteOrder

/-!
# How a session begins

Nothing of an earlier session is left when the handler of a successful connect runs: no read of
it is outstanding or ready (`ReadControl`), its write queue is gone (`WriteControl`), and what
waits to be written are messages that `write` filled in (`Filled`).  So a session begins with one
read of a header and nothing written, whatever the sessions before it did.
-/

namespace CloudEdgePush.Client

open CloudEdgePush.Lib CloudEdgePush.Lib.Bytes CloudEdgePush.Lib.Transition
open CloudEdgePush.Lib.EventLoop

def Ready.isRead : Ready → Bool
  | .handleRead _ _ => true
  | _ => false

@[simp] theorem Ready.isRead_posted (p : Posted) : (posted p).isRead = false := rfl

namespace TcpClientImpl

variable {σ : Type} {bus : Bus σ}

/-! ## The sync bytes of `_readMsg` -/

theorem length_retrieveInto_le (b : BytesBuffer) (length : Nat) :
    (b.retrieveInto length).1.length ≤ length := by
  unfold BytesBuffer.retrieveInto
  split
  · exact Nat.zero_le _
  · split
    · rename_i hmore
      refine (List.length_take_le _ _).trans ?_
      omega
    · exact List.length_take_le _ _

theorem length_protoclHead_retrieveHeader (rbuf : Bytes) {msg : TcpMessage}
    (h : msg.protoclHead.length = 4) : (retrieveHeader rbuf msg).1.protoclHead.length = 4 := by
  have hhead := length_retrieveInto_le (BytesBuffer.empty.append rbuf) kIntLen
  have hshort : ((BytesBuffer.empty.append rbuf).retrieveInto kIntLen).1.length ≤ 4 := hhead
  rw [← h] at hshort
  unfold retrieveHeader
  dsimp only
  rw [length_overwrite (by rw [Nat.zero_add]; exact hshort), h]

def HeadKept (c c' : TcpClientImpl σ) : Prop :=
  c.readMsg.protoclHead.length = 4 → c'.readMsg.protoclHead.length = 4

namespace HeadKept

theorem ofSame {c c' : TcpClientImpl σ} (h : c'.readMsg.protoclHead = c.readMsg.protoclHead) :
    HeadKept c c' := fun hlength => by rw [h, hlength]

theorem sendMessage (bus : Bus σ) (c : TcpClientImpl σ) (msg : BusMessage) :
    HeadKept c (c.sendMessage bus msg) := by
  rw [sendMessage_eq]
  exact id

theorem frame (bus : Bus σ) : Frame bus HeadKept where
  refl _ := id
  trans h h' := h' ∘ h
  setIo _ _ _ _ := id
  setWriter _ _ _ := id
  setSession _ _ _ _ _ := id
  stop _ := id
  logConnect _ := id
  logWrite _ _ _ := id
  sendError c := sendMessage bus c _
  sendHeartbeat c := sendMessage bus c _
  sendClose c := sendMessage bus c _

theorem handleReadHeader (bus : Bus σ) (c : TcpClientImpl σ) :
    HeadKept c (c.handleReadHeader bus false) := by
  have hframe := frame bus
  intro hlength
  have hretrieved := length_protoclHead_retrieveHeader c.rbuf hlength
  unfold TcpClientImpl.handleReadHeader
  split
  · exact hlength
  · rw [if_neg (by decide)]
    generalize retrieveHeader c.rbuf c.readMsg = result at hretrieved
    obtain ⟨msg, headerError⟩ := result
    have hsent : HeadKept (c.readRest msg)
        (((c.readRest msg).noteHeartbeatRsp msg).sendMessage bus (.kMsgReadHeader msg)) :=
      hframe.trans (hframe.noteHeartbeatRsp _ msg) (sendMessage bus _ _)
    cases headerError with
    | false => exact hsent hretrieved
    | true => exact hframe.trans hsent (hframe.failSession _) hretrieved

theorem handleReadBody (bus : Bus σ) (c : TcpClientImpl σ) :
    HeadKept c (c.handleReadBody bus false) := by
  have hbody : (retrieveBody c.rbuf c.readMsg).protoclHead = c.readMsg.protoclHead := by
    unfold retrieveBody
    dsimp only
    split
    · rfl
    · rfl
  unfold TcpClientImpl.handleReadBody
  split
  · exact id
  · rw [if_neg (by decide)]
    have hsent := sendMessage bus { c with readMsg := retrieveBody c.rbuf c.readMsg }
      (.kMsgReadBody (retrieveBody c.rbuf c.readMsg))
    exact (frame bus).trans (ofSame hbody) hsent

theorem handle (bus : Bus σ) (c : TcpClientImpl σ) (r : Ready) : HeadKept c (c.handle bus r) := by
  have hframe := frame bus
  refine hframe.handle (handleReadHeader bus) (handleReadBody bus) (fun c hopen => ?_) c r
  exact hframe.handleConnect_opened (fun c => sendMessage bus
    { c with stopped := false, closed := false, reconnectFlag := 0 } .kMsgStart) (fun _ => id) hopen

end HeadKept

/-! ## What is posted -/

/-- The messages that wait for `startWrite` are as `write` fills them in. -/
def Filled (posted : List Posted) : Prop := ∀ msg, .startWrite msg ∈ posted → fillHead msg = msg

theorem filled_writes (out : List TcpMessage) : Filled (out.map fun m => .startWrite (fillHead m)) := by
  intro msg hmsg
  obtain ⟨m, -, heq⟩ := List.mem_map.mp hmsg
  obtain rfl := Posted.startWrite.inj heq
  rfl

theorem Filled.append {posted posted' : List Posted} (h : Filled posted) (h' : Filled posted') :
    Filled (posted ++ posted') := by
  intro msg hmsg
  rcases List.mem_append.mp hmsg with hold | hnew
  · exact h msg hold
  · exact h' msg hnew

def PostsFilled (c c' : TcpClientImpl σ) : Prop := Filled c.io.posted → Filled c'.io.posted

namespace PostsFilled

variable {c c' : TcpClientImpl σ}

theorem ofSame (h : c'.io.posted = c.io.posted) : PostsFilled c c' := fun hfilled => by
  rw [h]
  exact hfilled

theorem trans {c₁ c₂ c₃ : TcpClientImpl σ} (h : PostsFilled c₁ c₂) (h' : PostsFilled c₂ c₃) :
    PostsFilled c₁ c₃ := h' ∘ h

theorem sendMessage (bus : Bus σ) (c : TcpClientImpl σ) (msg : BusMessage) :
    PostsFilled c (c.sendMessage bus msg) := by
  rw [sendMessage_eq]
  intro hfilled
  refine hfilled.append ?_
  split
  · exact nofun
  · exact filled_writes _

theorem close (c : TcpClientImpl σ) : PostsFilled c c.close := by
  rw [PostsFilled, (close_spec c).2]
  intro hfilled
  refine hfilled.append ?_
  unfold closing
  split
  · exact nofun
  · simp [Filled]

theorem startReconnect (c : TcpClientImpl σ) : PostsFilled c c.startReconnect :=
  ofSame (startReconnect_spec c).2

theorem failSession (c : TcpClientImpl σ) : PostsFilled c c.failSession := by
  unfold TcpClientImpl.failSession
  dsimp only
  split
  · exact (close c).trans (startReconnect { c.close with stopped := true })
  · exact close c

theorem write (c : TcpClientImpl σ) (msg : TcpMessage) : PostsFilled c (c.write msg) := by
  unfold TcpClientImpl.write
  dsimp only
  split
  · exact id
  · exact fun hfilled => hfilled.append (filled_writes [msg])

theorem handleConnectError (bus : Bus σ) (c : TcpClientImpl σ) :
    PostsFilled c (c.handleConnectError bus) := by
  unfold TcpClientImpl.handleConnectError
  dsimp only
  split
  · exact (close { c with stopped := true }).trans (sendMessage bus _ _)
  · exact (close { c with stopped := true }).trans (startReconnect _)

theorem handleConnect (bus : Bus σ) (c : TcpClientImpl σ) (ec : Bool) :
    PostsFilled c (c.handleConnect bus ec) := by
  unfold TcpClientImpl.handleConnect
  split
  · exact handleConnectError bus { c with io.isOpen := false }
  · split
    · exact handleConnectError bus c
    · exact sendMessage bus { c with stopped := false, closed := false, reconnectFlag := 0 } .kMsgStart

theorem noteHeartbeatRsp (c : TcpClientImpl σ) (msg : TcpMessage) :
    PostsFilled c (c.noteHeartbeatRsp msg) := by
  unfold TcpClientImpl.noteHeartbeatRsp
  split
  · exact id
  · exact id

theorem completeRead (bus : Bus σ) (c : TcpClientImpl σ) (handler : ReadHandler) (ec : Bool) :
    PostsFilled c (c.completeRead bus handler ec) := by
  cases handler with
  | handleReadHeader =>
      simp only [TcpClientImpl.completeRead, handleReadHeader]
      split
      · exact id
      · split
        · exact failSession c
        · generalize retrieveHeader c.rbuf c.readMsg = result
          obtain ⟨msg, headerError⟩ := result
          have hsent := (noteHeartbeatRsp (c.readRest msg) msg).trans
            (sendMessage bus _ (.kMsgReadHeader msg))
          cases headerError with
          | false => exact hsent
          | true => exact hsent.trans (failSession _)
  | handleReadBody =>
      simp only [TcpClientImpl.completeRead, handleReadBody]
      split
      · exact id
      · split
        · exact failSession c
        · exact sendMessage bus { c with readMsg := retrieveBody c.rbuf c.readMsg } _

theorem handleWrite (c : TcpClientImpl σ) (ec : Bool) : PostsFilled c (c.handleWrite ec) := by
  unfold TcpClientImpl.handleWrite
  dsimp only
  split
  · exact id
  · split
    · exact failSession c
    · split
      · exact id
      · exact id

theorem startWrite (c : TcpClientImpl σ) (msg : TcpMessage) : PostsFilled c (c.startWrite msg) := by
  unfold TcpClientImpl.startWrite
  dsimp only
  split
  · exact id
  · split
    · exact id
    · split
      · exact id
      · exact id

theorem heartbeatTick (bus : Bus σ) (c : TcpClientImpl σ) :
    PostsFilled c (c.heartbeatTick bus) := by
  unfold TcpClientImpl.heartbeatTick
  split
  · exact sendMessage bus c _
  · split
    · exact (close c).trans (startReconnect (c.close.setHeartbeatTimer none))
    · exact sendMessage bus { c with heartBeatLostTimes := c.heartBeatLostTimes + 1 } _

theorem checkHeartbeat (bus : Bus σ) (c : TcpClientImpl σ) :
    PostsFilled c (c.checkHeartbeat bus) := by
  unfold TcpClientImpl.checkHeartbeat
  split
  · exact id
  · split
    · exact heartbeatTick bus c
    · exact id

theorem handle (bus : Bus σ) (c : TcpClientImpl σ) (r : Ready) :
    PostsFilled c (c.handle bus r) := by
  cases r with
  | handleConnect ec => exact handleConnect bus c ec
  | handleRead op ec => exact completeRead bus c op.handler ec
  | handleWrite op ec => exact handleWrite c ec
  | checkHeartbeat => exact checkHeartbeat bus c
  | doReconnect => exact id
  | posted p =>
      cases p with
      | startWrite msg => exact startWrite c msg
      | doClose => exact sendMessage bus c .kMsgClose

end PostsFilled

end TcpClientImpl

namespace IoLoop

open Fifo TcpClientImpl

variable {σ : Type} {s s' : IoLoop σ} {bus : Bus σ}

/-! ## Reads of earlier sessions -/

/-- When a connect is over, the reads of the session before it are, and the handlers of these come
before its handler. -/
structure ReadControl (s : IoLoop σ) : Prop where
  finished : (∃ r ∈ s.queue, r.isConnect = true) → s.link.reads = []
  behind : s.queue.Pairwise fun r later => r.isConnect = true → later.isRead = false

theorem ReadControl.ofProgress {e : Occurrence} (h : ReadControl s) (hcontrol : WriteControl s)
    (hprompt : ClosedSocketFirst s (.env e)) (hstep : step bus s (.env e) = some s') :
    ReadControl s' := by
  obtain ⟨ready, hprogress, hqueue, -⟩ := progress_of_step hstep
  generalize hl : s'.link = l at hprogress
  have hready (hreads : l.reads = s.link.reads) (hnone : ∀ r ∈ ready, r.isConnect = false)
      (hquiet : ∀ r ∈ ready, r.isRead = false) : ReadControl s' := by
    refine ⟨?_, ?_⟩
    · rw [hl, hreads, hqueue]
      rintro ⟨r, hr, hconnect⟩
      rcases List.mem_append.mp hr with hold | hnew
      · exact h.finished ⟨r, hold, hconnect⟩
      · rw [hnone r hnew] at hconnect
        cases hconnect
    · rw [hqueue]
      refine List.pairwise_append.mpr ⟨h.behind, ?_, fun r _ later hlater _ => hquiet later hlater⟩
      exact List.pairwise_of_forall_mem_list fun _ _ later hlater _ => hquiet later hlater
  have hconnected {ec : Bool} (hconnects : 0 < s.link.connects) (hreads : l.reads = s.link.reads)
      (heq : ready = [.handleConnect ec]) (hprompt : s.link.isOpen = false → s.link.reads = []) :
      ReadControl s' := by
    refine ⟨fun _ => ?_, ?_⟩
    · rw [hl, hreads]
      exact hprompt (hcontrol.socket hconnects)
    · rw [hqueue, heq]
      refine List.pairwise_append.mpr ⟨h.behind, List.pairwise_singleton _ _, ?_⟩
      intro r _ later hlater _
      obtain rfl := List.mem_singleton.mp hlater
      rfl
  cases hprogress with
  | connected hconnects => exact hconnected hconnects rfl rfl fun hclosed => (hprompt hclosed).1
  | connectFailed hconnects => exact hconnected hconnects rfl rfl fun hclosed => (hprompt hclosed).1
  | readDone i op ec hop =>
      have hnone : ¬∃ r ∈ s.queue, r.isConnect = true := by
        intro hconnect
        have hempty : s.state.client.io.reads = [] := h.finished hconnect
        rw [hempty] at hop
        cases hop
      refine ⟨fun hconnect => ?_, ?_⟩
      · rw [hqueue] at hconnect
        simp [Ready.isConnect] at hconnect hnone
        obtain ⟨r, hr, hconnect⟩ := hconnect
        rw [hnone r hr] at hconnect
        cases hconnect
      · rw [hqueue]
        refine List.pairwise_append.mpr ⟨h.behind, List.pairwise_singleton _ _, ?_⟩
        exact fun r hr _ _ hconnect => absurd ⟨r, hr, hconnect⟩ hnone
  | write msg msgs => exact hready rfl (by simp) (by simp)
  | close => exact hready rfl (by simp) (by simp)
  | _ => exact hready rfl (by simp [Ready.isConnect]) (by simp [Ready.isRead])

theorem ReadControl.ofOutcome (h : ReadControl s) (hapart : ConnectsApart s)
    (hstep : step bus s .run = some s') : ReadControl s' := by
  obtain ⟨r, rest, posted, hturn, houtcome⟩ := outcome_of_step hstep
  generalize hl : s'.link = l at houtcome
  have hbehind : s'.queue.Pairwise fun r later => r.isConnect = true → later.isRead = false := by
    have hbehind := h.behind
    rw [hturn.queue, List.pairwise_cons] at hbehind
    rw [hturn.queue']
    refine List.pairwise_append.mpr ⟨hbehind.2, ?_, ?_⟩
    · exact List.pairwise_of_forall_mem_list (by simp)
    · intro r _ later hlater _
      obtain ⟨p, -, rfl⟩ := List.mem_map.mp hlater
      rfl
  have hnone (hnone : ∀ later ∈ s'.queue, later.isConnect = false) : ReadControl s' := by
    refine ⟨?_, hbehind⟩
    rintro ⟨later, hlater, hconnect⟩
    rw [hnone later hlater] at hconnect
    cases hconnect
  have hrunning (hrunning : s.link.stopped = false) : ReadControl s' :=
    hnone (hapart.noConnect_of_running hturn hrunning).2
  have hkept (hreads : l.reads = s.link.reads) : ReadControl s' := by
    refine ⟨fun hconnect => ?_, hbehind⟩
    rw [hl, hreads]
    exact h.finished (exists_connect_before hturn hconnect)
  cases houtcome with
  | connected op msgs hopen hop => exact hnone (hapart.noConnect_of_connect hturn rfl).2
  | connectFailed ec msgs hfailed => exact hnone (hapart.noConnect_of_connect hturn rfl).2
  | ignored r hneeds hstopped => exact hkept rfl
  | lost r reads msgs hrun hlost => exact hrunning hrun
  | heartbeatLost hrun hmissed => exact hrunning hrun
  | beat msgs hrun hmissed => exact hrunning hrun
  | read op next msgs hrun hlost hnext => exact hrunning hrun
  | written op hrun => exact hrunning hrun
  | accepted msg hrun => exact hrunning hrun
  | closed msgs => exact hkept rfl
  | reconnect => exact hkept rfl

/-! ## All of it -/

/-- What holds between two handlers as long as connects do not overlap. -/
structure Tidy (s : IoLoop σ) : Prop where
  apart : ConnectsApart s
  writes : WriteControl s
  log : WriteLog s
  reads : ReadControl s
  filled : ∀ msg, .posted (.startWrite msg) ∈ s.queue → fillHead msg = msg
  accepted : ∀ entry ∈ s.state.accepted, fillHead entry.2 = entry.2
  head : s.state.client.readMsg.protoclHead.length = 4

theorem client_of_progress {e : Occurrence} (hstep : step bus s (.env e) = some s') :
    ∃ c new, IoClient.occurs s.state.client e = some (c, new) ∧
      s'.state.client = { c with io.posted := [] } ∧
      s'.queue = s.queue ++ (new ++ c.io.posted.map .posted) := by
  obtain ⟨state, ready, henv, rfl⟩ := EventLoop.step_env_eq_some.mp hstep
  obtain ⟨⟨c, new⟩, hoccurs, heq⟩ := Option.map_eq_some_iff.mp henv
  obtain ⟨rfl, rfl⟩ := Prod.mk.inj heq
  exact ⟨c, new, hoccurs, rfl, rfl⟩

theorem client_of_run (hstep : step bus s .run = some s') :
    ∃ r rest, s.queue = r :: rest ∧
      s'.state.client = { s.state.client.handle bus r with io.posted := [] } ∧
      s'.queue = rest ++ (s.state.client.handle bus r).io.posted.map .posted ∧
      s'.state.accepted = s.state.accepted ++ (s.state.client.acceptedBy r).toList := by
  obtain ⟨r, rest, hqueue, rfl⟩ := EventLoop.step_run_eq_some.mp hstep
  exact ⟨r, rest, hqueue, rfl, rfl, rfl⟩

theorem filled_of_posted {posted : List Posted} (h : Filled posted) {msg : TcpMessage}
    (hmsg : .posted (.startWrite msg) ∈ posted.map Ready.posted) : fillHead msg = msg := by
  obtain ⟨p, hp, heq⟩ := List.mem_map.mp hmsg
  obtain rfl := Ready.posted.inj heq
  exact h msg hp

theorem filled_nothing (s : IoLoop σ) : Filled s.state.client.io.posted := by
  rw [s.state.posted]
  exact nofun

theorem filled_ofProgress {e : Occurrence} (hstep : step bus s (.env e) = some s')
    (h : ∀ msg, .posted (.startWrite msg) ∈ s.queue → fillHead msg = msg) :
    ∀ msg, .posted (.startWrite msg) ∈ s'.queue → fillHead msg = msg := by
  have hnew (new : List Ready) (hqueue : s'.queue = s.queue ++ new)
      (hfilled : ∀ msg, .posted (.startWrite msg) ∈ new → fillHead msg = msg) :
      ∀ msg, .posted (.startWrite msg) ∈ s'.queue → fillHead msg = msg := by
    intro msg hmsg
    rw [hqueue] at hmsg
    rcases List.mem_append.mp hmsg with hold | hnew
    · exact h msg hold
    · exact hfilled msg hnew
  by_cases hwrite : ∃ msg, e = .write msg
  · obtain ⟨msg, rfl⟩ := hwrite
    obtain ⟨c, new, hoccurs, -, hqueue⟩ := client_of_progress hstep
    obtain ⟨rfl, rfl⟩ := Prod.mk.inj (Option.some.inj hoccurs)
    exact hnew _ hqueue fun m hm =>
      filled_of_posted (PostsFilled.write _ msg (filled_nothing s)) hm
  · obtain ⟨ready, hprogress, hqueue, -⟩ := progress_of_step hstep
    refine hnew ready hqueue fun m hm => ?_
    generalize s'.link = l at hprogress
    cases hprogress with
    | write msg msgs => exact absurd ⟨msg, rfl⟩ hwrite
    | close =>
        refine filled_of_posted (fun m hm => ?_) hm
        unfold closing at hm
        split at hm
        · cases hm
        · cases List.mem_singleton.mp hm
    | _ => simp at hm

theorem readMsg_ofProgress {e : Occurrence} (hstep : step bus s (.env e) = some s') :
    s'.state.client.readMsg = s.state.client.readMsg := by
  obtain ⟨c, new, hoccurs, hclient, -⟩ := client_of_progress hstep
  obtain ⟨closed, rbuf, io, trace, hnext⟩ := occurs_eq hoccurs
  rw [hclient, hnext]

theorem Tidy.ofProgress {e : Occurrence} (h : Tidy s) (hprompt : ClosedSocketFirst s (.env e))
    (hstep : step bus s (.env e) = some s') : Tidy s' := by
  obtain ⟨-, -, -, haccepted⟩ := progress_of_step hstep
  obtain ⟨hstopped, hconnecting⟩ := same_of_progress hstep
  obtain ⟨hwrites, hlog⟩ := writer_ofProgress h.writes h.log h.apart hprompt hstep
  refine ⟨⟨?_, ?_⟩, hwrites, hlog, h.reads.ofProgress h.writes hprompt hstep,
    filled_ofProgress hstep h.filled, ?_, ?_⟩
  · rw [hconnecting]
    exact h.apart.single
  · rw [hstopped, hconnecting]
    exact h.apart.running
  · rw [haccepted]
    exact h.accepted
  · rw [readMsg_ofProgress hstep]
    exact h.head

theorem Tidy.ofRun (h : Tidy s) (hsingle : s'.connecting ≤ 1) (hreconnect : ReconnectsApart s .run)
    (hstep : step bus s .run = some s') : Tidy s' := by
  have hapart := h.apart.next hsingle hreconnect hstep
  obtain ⟨hwrites, hlog⟩ := writer_ofOutcome h.writes h.log h.apart hapart hstep
  have hreads := h.reads.ofOutcome h.apart hstep
  obtain ⟨r, rest, hqueue, hclient, hqueue', haccepted⟩ := client_of_run hstep
  have hfilled := h.filled
  rw [hqueue] at hfilled
  refine ⟨hapart, hwrites, hlog, hreads, ?_, ?_, ?_⟩
  · intro msg hmsg
    rw [hqueue'] at hmsg
    rcases List.mem_append.mp hmsg with hold | hnew
    · exact hfilled msg (List.mem_cons_of_mem _ hold)
    · exact filled_of_posted (PostsFilled.handle bus s.state.client r (filled_nothing s)) hnew
  · intro entry hentry
    rw [haccepted] at hentry
    rcases List.mem_append.mp hentry with hold | hnew
    · exact h.accepted entry hold
    · obtain ⟨msg, rfl, rfl⟩ : ∃ msg, r = .posted (.startWrite msg) ∧
          entry = (s.state.client.io.connection, msg) := by
        cases r with
        | posted p =>
            cases p with
            | startWrite msg =>
                obtain ⟨-, heq⟩ := Option.ite_none_left_eq_some.mp (Option.mem_toList.mp hnew)
                exact ⟨msg, rfl, (Option.some.inj heq).symm⟩
            | doClose => cases hnew
        | _ => cases hnew
      exact hfilled msg List.mem_cons_self
  · rw [hclient]
    exact HeadKept.handle bus s.state.client r h.head

theorem Tidy.next {e : Event} (h : Tidy s) (hsingle : s'.connecting ≤ 1)
    (hprompt : ClosedSocketFirst s e) (hreconnect : ReconnectsApart s e)
    (hstep : step bus s e = some s') : Tidy s' := by
  cases e with
  | env e => exact h.ofProgress hprompt hstep
  | run => exact h.ofRun hsingle hreconnect hstep

theorem tidy_start (cfg : ClientConfig) (sub : σ) : Tidy (start cfg sub) where
  apart := ⟨le_rfl, nofun⟩
  writes := ⟨fun _ => rfl, nofun, fun _ h => absurd rfl h, fun _ => rfl, .nil⟩
  log := ⟨Nat.zero_le 1, nofun, nofun, nofun, nofun, fun _ => List.nil_prefix⟩
  reads := ⟨nofun, .nil⟩
  filled := nofun
  accepted := nofun
  head := rfl

/-- A session that has just begun: the client waits for a header, and nothing is written. -/
structure Begun (s : IoLoop σ) : Prop where
  header : AwaitsHeader s.state.client
  reading : ∀ r ∈ s.queue, r.isRead = false
  connecting : s.connecting = 0
  writeMsgs : s.link.writeMsgs = []
  pendingWrites : s.pendingWrites = 0
  accepted : s.acceptedOn s.link.connection = []
  started : s.startedOn s.link.connection = []

theorem handleConnect_reads (bus : Bus σ) {c : TcpClientImpl σ} (hopen : c.io.isOpen = true)
    (hreads : c.io.reads = []) (hhead : c.readMsg.protoclHead.length = 4) :
    AwaitsHeader (c.handleConnect bus false) := by
  let c₁ : TcpClientImpl σ := { c with stopped := false, closed := false, reconnectFlag := 0 }
  have hsame := SameReader.sendMessage bus c₁ .kMsgStart
  unfold handleConnect
  rw [if_neg (by decide), if_neg (by simp [hopen])]
  refine ⟨hsame.stopped, hsame.isOpen.trans hopen, ?_, length_resize _ _ _, ?_⟩
  · show (c₁.sendMessage bus .kMsgStart).io.reads ++ [_] = _
    rw [hsame.reads, show c₁.io.reads = [] from hreads]
    rfl
  · show (c₁.sendMessage bus .kMsgStart).readMsg.protoclHead.length = 4
    rw [hsame.readMsg]
    exact hhead

theorem Tidy.begun (h : Tidy s) (h' : Tidy s') {rest : List Ready}
    (hqueue : s.queue = .handleConnect false :: rest) (hopen : s.link.isOpen = true)
    (hstep : step bus s .run = some s') : Begun s' := by
  have hconnect : ∃ r ∈ s.queue, r.isConnect = true := ⟨.handleConnect false, by simp [hqueue], rfl⟩
  obtain ⟨hon, hfrom⟩ := h.log.fresh hconnect hopen
  have hbehind := h.reads.behind
  rw [hqueue, List.pairwise_cons] at hbehind
  have hheader : AwaitsHeader s'.state.client := by
    obtain ⟨r, rest, hqueue', hclient, -⟩ := client_of_run hstep
    obtain ⟨rfl, rfl⟩ := List.cons.inj (hqueue.symm.trans hqueue')
    have hawaits := handleConnect_reads bus hopen (h.reads.finished hconnect) h.head
    rw [hclient]
    exact ⟨hawaits.running, hawaits.isOpen, hawaits.reads, hawaits.rbuf, hawaits.head⟩
  obtain ⟨r, rest', posted, hturn, houtcome⟩ := outcome_of_step hstep
  obtain ⟨rfl, rfl⟩ := List.cons.inj (hqueue.symm.trans hturn.queue)
  have haccepted : s'.state.accepted = s.state.accepted :=
    hturn.accepted.trans (List.append_nil _)
  have hlink : s'.link.connection = s.link.connection ∧ s'.link.started = s.link.started := by
    generalize s'.link = l at houtcome
    cases houtcome with
    | connectFailed ec msgs hfailed =>
        have hclosed : s.link.isOpen = false := hfailed.resolve_left (by decide)
        rw [hopen] at hclosed
        cases hclosed
    | connected op msgs hopen' hop => exact ⟨rfl, rfl⟩
    | ignored r hneeds hstopped => cases hneeds
    | lost r reads msgs hrunning hlost => cases hlost
  obtain ⟨hconnection, hstarted⟩ := hlink
  have hrunning : s'.link.stopped = false := hheader.running
  have hon' : s'.acceptedOn s'.link.connection = [] := by
    rw [acceptedOn, haccepted, hconnection]
    exact hon
  have hfrom' : s'.startedOn s'.link.connection = [] := by
    rw [startedOn, hstarted, hconnection]
    exact hfrom
  obtain ⟨hpending, popped, hconserves, -⟩ := h'.log.session hrunning
  rw [hon'] at hconserves
  have hempty : s'.link.writeMsgs = [] := by
    have hnil := (List.append_eq_nil_iff.mp hconserves.symm).2
    exact List.map_eq_nil_iff.mp hnil
  refine ⟨hheader, ?_, h'.apart.running hrunning, hempty, ?_, hon', hfrom'⟩
  · intro later hlater
    rw [hturn.queue'] at hlater
    rcases List.mem_append.mp hlater with hold | hnew
    · exact hbehind.1 later hold rfl
    · obtain ⟨p, -, rfl⟩ := List.mem_map.mp hnew
      rfl
  · rw [hpending, hempty]
    rfl

/-- Connects do not overlap, operations on a closed socket are over before the handlers that come
later, and no reconnect begins while a session runs. -/
theorem tidy_of_run (bus : Bus σ) {cfg : ClientConfig} {sub : σ} {events : List Event} {s : IoLoop σ}
    (hrun : run (step bus) (start cfg sub) events = some s)
    (hsingle : ∀ before m, before <+: events → run (step bus) (start cfg sub) before = some m →
      m.connecting ≤ 1)
    (hprompt : AllSteps (step bus) ClosedSocketFirst (start cfg sub) events)
    (hreconnect : AllSteps (step bus) ReconnectsApart (start cfg sub) events) : Tidy s := by
  have hkeep : ∀ s e s', Tidy s → s.connecting ≤ 1 → s'.connecting ≤ 1 →
      ClosedSocketFirst s e ∧ ReconnectsApart s e → step bus s e = some s' → Tidy s' :=
    fun s e s' h _ hsingle ⟨hprompt, hreconnect⟩ hstep => h.next hsingle hprompt hreconnect hstep
  exact run_of_prefixes hkeep (tidy_start cfg sub) hsingle (hprompt.and hreconnect) hrun

/-- The last of the events runs the handler of a successful connect, and the conditions of
`tidy_of_run` hold. -/
structure JustConnected (bus : Bus σ) (cfg : ClientConfig) (sub : σ) (events : List Event)
    (s : IoLoop σ) : Prop where
  turn : ∃ m rest, run (step bus) (start cfg sub) events = some m ∧
    m.queue = .handleConnect false :: rest ∧ m.link.isOpen = true ∧ step bus m .run = some s
  single : ∀ before m, before <+: events ++ [EventLoop.Event.run] →
    run (step bus) (start cfg sub) before = some m → m.connecting ≤ 1
  prompt : AllSteps (step bus) ClosedSocketFirst (start cfg sub) (events ++ [.run])
  reconnect : AllSteps (step bus) ReconnectsApart (start cfg sub) (events ++ [.run])

theorem JustConnected.tidy {cfg : ClientConfig} {sub : σ} {events : List Event}
    (h : JustConnected bus cfg sub events s) :
    ∃ m rest, Tidy m ∧ m.queue = .handleConnect false :: rest ∧ m.link.isOpen = true ∧
      step bus m .run = some s ∧ Tidy s := by
  obtain ⟨m, rest, hrun, hqueue, hopen, hconnect⟩ := h.turn
  have hstarts := List.prefix_append events [EventLoop.Event.run]
  have htidy : Tidy m := tidy_of_run bus hrun
    (fun before m hbefore => h.single before m (hbefore.trans hstarts))
    (h.prompt.of_initial hstarts) (h.reconnect.of_initial hstarts)
  have htidy' : Tidy s :=
    tidy_of_run bus ((run_concat hrun .run).trans hconnect) h.single h.prompt h.reconnect
  exact ⟨m, rest, htidy, hqueue, hopen, hconnect, htidy'⟩

/-- As long as connects are apart, every session begins with one read of a header outstanding and
nothing else read, written or waiting to be written, whatever the sessions before it left. -/
theorem begun_of_connect (bus : Bus σ) {cfg : ClientConfig} {sub : σ} {events : List Event}
    {s : IoLoop σ} (h : JustConnected bus cfg sub events s) : Begun s := by
  obtain ⟨m, rest, htidy, hqueue, hopen, hconnect, htidy'⟩ := h.tidy
  exact htidy.begun htidy' hqueue hopen hconnect

/-- The session is lost while it writes and reads, and the connect after it is over. -/
def connectedAgain : List Event := lostWhileWriting.take 17

theorem justConnected_again :
    ∃ s, JustConnected idleBus sampleConfig () connectedAgain s ∧
      run (step idleBus) (start sampleConfig ()) (connectedAgain ++ [.run]) = some s := by
  have hsteps : (∃ m ∈ run (step idleBus) (start sampleConfig ()) connectedAgain,
        m.queue = [.handleConnect false] ∧ m.link.isOpen = true ∧
          (step idleBus m .run).isSome) ∧
      (∀ before ∈ (connectedAgain ++ [EventLoop.Event.run]).inits,
        ∀ m ∈ run (step idleBus) (start sampleConfig ()) before, m.connecting ≤ 1) ∧
      AllSteps (step idleBus) ClosedSocketFirst (start sampleConfig ())
        (connectedAgain ++ [.run]) ∧
      AllSteps (step idleBus) ReconnectsApart (start sampleConfig ()) (connectedAgain ++ [.run]) := by
    decide +kernel
  obtain ⟨⟨m, hrun, hqueue, hopen, hsome⟩, hsingle, hprompt, hreconnect⟩ := hsteps
  obtain ⟨s, hconnect⟩ := Option.isSome_iff_exists.mp hsome
  refine ⟨s, ⟨⟨m, [], hrun, hqueue, hopen, hconnect⟩, fun before m hbefore hm => ?_, hprompt,
    hreconnect⟩, (run_concat hrun .run).trans hconnect⟩
  exact hsingle before ((List.mem_inits _ _).mpr hbefore) m hm

theorem begun_of_connect_again :
    ∃ s, run (step idleBus) (start sampleConfig ()) (connectedAgain ++ [.run]) = some s ∧ Begun s := by
  obtain ⟨s, hconnected, hrun⟩ := justConnected_again
  exact ⟨s, hrun, begun_of_connect idleBus hconnected⟩

end IoLoop

end CloudEdgePush.Client
