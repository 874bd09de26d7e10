import CloudEdgePush.Client.Login
import CloudEdgePush.Client.Reconnect

/-!
# The supervision of a connection

`checkHeartbeat` closes a connection on which four ticks in a row were silent.  A `Watch` keeps
what the ticks of the current connection saw; the client has `_isRecvedHeartbeatRsp` and
`_heartBeatLostTimes` for it.  `handleConnect` resets the first of them only, so the second one
counts for the new connection what an earlier one missed, unless `doClose` has run in between.
-/

namespace CloudEdgePush.Client

open CloudEdgePush.Lib CloudEdgePush.Lib.Transition CloudEdgePush.Lib.EventLoop

namespace TcpClientImpl

variable {σ : Type}

def opens (c : TcpClientImpl σ) : Ready → Bool
  | .handleConnect ec => !ec && c.io.isOpen
  | _ => false

/-- The handler finds the heartbeat timer of a running session expired. -/
def ticks (c : TcpClientImpl σ) : Ready → Bool
  | .checkHeartbeat => !c.stopped && c.heartbeatExpired
  | _ => false

def hears (c : TcpClientImpl σ) : Ready → Bool
  | .handleRead op ec =>
      !c.stopped && !ec && decide (op.handler = .handleReadHeader) &&
        decide (kHeartRsp = (retrieveHeader c.rbuf c.readMsg).1.msgType)
  | _ => false

end TcpClientImpl

/-- What there was on the current connection: whether a heart_rsp was received since the last
tick, and which ticks were silent, the last one first. -/
structure Watch where
  heard : Bool
  silent : List Bool
deriving DecidableEq, Repr

namespace Watch

variable {σ : Type}

def start : Watch := ⟨false, []⟩

def tick (w : Watch) : Watch := ⟨false, (!w.heard) :: w.silent⟩

def after (w : Watch) (c : TcpClientImpl σ) (r : Ready) : Watch :=
  if c.opens r then start
  else if c.ticks r then w.tick
  else if c.hears r then { w with heard := true }
  else w

def next (w : Watch) (s : IoLoop σ) : IoLoop.Event → Watch
  | .env _ => w
  | .run =>
      match s.queue with
      | [] => w
      | r :: _ => w.after s.state.client r

def Lost (w : Watch) : Prop := List.replicate 4 true <+: w.silent

instance (w : Watch) : Decidable w.Lost :=
  inferInstanceAs (Decidable (List.replicate 4 true <+: w.silent))

/-- The silent ticks since the last one that was not. -/
def missed (w : Watch) : Nat := (w.silent.takeWhile id).length

theorem replicate_isPrefix_iff (n : Nat) (l : List Bool) :
    List.replicate n true <+: l ↔ n ≤ (l.takeWhile id).length := by
  induction l generalizing n with
  | nil => simp
  | cons b l ih =>
      cases n with
      | zero => simp
      | succ n =>
          cases b with
          | false => simp [List.replicate_succ]
          | true => simp [List.replicate_succ, ih]

theorem missed_tick (w : Watch) : w.tick.missed = if w.heard then 0 else w.missed + 1 := by
  cases hheard : w.heard with
  | true => simp [missed, tick, hheard]
  | false => simp [missed, tick, hheard]

theorem lost_tick_iff (w : Watch) : w.tick.Lost ↔ w.heard = false ∧ 3 ≤ w.missed := by
  have hmissed := missed_tick w
  calc
    w.tick.Lost ↔ 4 ≤ w.tick.missed := replicate_isPrefix_iff 4 w.tick.silent
    _ ↔ w.heard = false ∧ 3 ≤ w.missed := by
      cases hheard : w.heard with
      | true => simp [hmissed, hheard]
      | false => simp [hmissed, hheard]

end Watch

/-! ## Watched clients -/

structure Supervised where
  loop : IoLoop MessageHandler
  watch : Watch

namespace IoLoop

variable {σ : Type}

def Closes (s s' : IoLoop σ) : Prop :=
  s'.link.closed = true ∧ s'.queue = s.queue.tail ++ (closing s.link.closed).map .posted

def Beats (s s' : IoLoop σ) : Prop :=
  s'.link.closed = s.link.closed ∧ ∃ body, s'.queue = s.queue.tail ++
    [.posted (.startWrite (TcpClientImpl.fillHead { msgType := kHeartReq, body }))]

instance (s s' : IoLoop σ) : Decidable (Closes s s') :=
  inferInstanceAs (Decidable (_ ∧ _))

def Ticks (s : IoLoop σ) : Prop := ∃ r ∈ s.queue.head?, s.state.client.ticks r = true

instance (s : IoLoop σ) : Decidable (Ticks s) :=
  inferInstanceAs (Decidable (∃ r ∈ s.queue.head?, s.state.client.ticks r = true))

/-- When a connection begins, nothing is left of the count of an earlier one. -/
def CountsAfresh (s : IoLoop σ) : Event → Prop
  | .env _ => True
  | .run => (∃ r ∈ s.queue.head?, s.state.client.opens r = true) →
      s.state.client.heartBeatLostTimes = 0

instance (s : IoLoop σ) (e : Event) : Decidable (CountsAfresh s e) :=
  match e with
  | .env _ => isTrue trivial
  | .run => inferInstanceAs (Decidable (_ → _))

end IoLoop

namespace Supervised

open TcpClientImpl IoLoop

variable (p : Platform) (transfers : Nat → Transfer)

def step (s : Supervised) (e : IoLoop.Event) : Option Supervised :=
  (IoLoop.step (MessageHandler.bus p transfers) s.loop e).map fun loop =>
    ⟨loop, s.watch.next s.loop e⟩

def start (cfg : ClientConfig) (h : MessageHandler) : Supervised :=
  ⟨IoLoop.start cfg h, Watch.start⟩

/-- A tick closes the connection if and only if it is the fourth silent one, and sends one
heartbeat request otherwise. -/
structure Supervises (s : Supervised) : Prop where
  bounded : s.loop.state.client.heartBeatLostTimes ≤ 3
  decides : ∀ s', step p transfers s .run = some s' → s.loop.Ticks →
    (s.loop.Closes s'.loop ↔ s'.watch.Lost) ∧ (¬s'.watch.Lost → s.loop.Beats s'.loop)

end Supervised

/-! ## What the handlers leave alone -/

namespace MessageHandler

variable (p : Platform) (transfers : Nat → Transfer)

theorem deliver_tcpSessionStarted (now : Nat) {msg : BusMessage} (hmsg : msg ≠ .kMsgClose)
    {h : MessageHandler} (hstarted : h.tcpSessionStarted = true) :
    (deliver p transfers now msg h).1.tcpSessionStarted = true := by
  cases msg with
  | kMsgClose => exact absurd rfl hmsg
  | kMsgReadBody msg =>
      by_cases hheart : msg.msgType = kHeartRsp
      · have hdeliver : deliver p transfers now (.kMsgReadBody msg) h = h.onHeartRsp p now :=
          if_pos hheart.symm
        rw [hdeliver]
        unfold onHeartRsp
        split
        · exact hstarted
        · exact hstarted
      · exact (onReadBody_other p transfers now h hheart).2.2.trans hstarted
  | kMsgStart => rfl
  | _ => exact hstarted

end MessageHandler

namespace TcpClientImpl

variable (p : Platform) (transfers : Nat → Transfer)

structure Unsupervised (c c' : TcpClientImpl MessageHandler) : Prop where
  recved : c'.isRecvedHeartbeatRsp = c.isRecvedHeartbeatRsp
  lost : c'.heartBeatLostTimes = c.heartBeatLostTimes
  running : c'.stopped = false → c.stopped = false
  started : c.sub.tcpSessionStarted = true → c'.sub.tcpSessionStarted = true

namespace Unsupervised

theorem refl (c : TcpClientImpl MessageHandler) : Unsupervised c c := ⟨rfl, rfl, id, id⟩

theorem trans {c₁ c₂ c₃ : TcpClientImpl MessageHandler} (h : Unsupervised c₁ c₂)
    (h' : Unsupervised c₂ c₃) : Unsupervised c₁ c₃ where
  recved := h'.recved.trans h.recved
  lost := h'.lost.trans h.lost
  running := h.running ∘ h'.running
  started := h'.started ∘ h.started

variable (c : TcpClientImpl MessageHandler)

theorem sendMessage {msg : BusMessage} (hmsg : msg ≠ .kMsgClose) :
    Unsupervised c (c.sendMessage (MessageHandler.bus p transfers) msg) := by
  rw [sendMessage_eq]
  exact ⟨rfl, rfl, id, MessageHandler.deliver_tcpSessionStarted p transfers c.io.now hmsg⟩

theorem close : Unsupervised c c.close := by
  unfold TcpClientImpl.close
  split
  · exact refl c
  · exact ⟨rfl, rfl, id, id⟩

theorem startReconnect : Unsupervised c c.startReconnect := by
  unfold TcpClientImpl.startReconnect
  dsimp only
  split
  · exact ⟨rfl, rfl, id, id⟩
  · split
    · exact ⟨rfl, rfl, id, id⟩
    · exact ⟨rfl, rfl, id, id⟩

theorem stop : Unsupervised c { c with stopped := true } := ⟨rfl, rfl, nofun, id⟩

theorem failSession : Unsupervised c c.failSession := by
  have hstop := (close c).trans (stop c.close)
  unfold TcpClientImpl.failSession
  dsimp only
  split
  · exact hstop.trans (startReconnect _)
  · exact hstop

theorem handleConnectError :
    Unsupervised c (c.handleConnectError (MessageHandler.bus p transfers)) := by
  have hclose := (stop c).trans (close _)
  unfold TcpClientImpl.handleConnectError
  dsimp only
  split
  · exact hclose.trans (sendMessage p transfers _ (by decide))
  · exact hclose.trans (startReconnect _)

theorem handleConnect {ec : Bool} (h : c.opens (.handleConnect ec) = false) :
    Unsupervised c (c.handleConnect (MessageHandler.bus p transfers) ec) := by
  have hset : Unsupervised c { c with io.isOpen := false } := ⟨rfl, rfl, id, id⟩
  unfold TcpClientImpl.handleConnect
  cases ec with
  | true => exact hset.trans (handleConnectError p transfers _)
  | false =>
      have hclosed : c.io.isOpen = false := h
      rw [if_neg (by decide), hclosed]
      exact handleConnectError p transfers c

theorem startWrite (msg : TcpMessage) : Unsupervised c (c.startWrite msg) := by
  unfold TcpClientImpl.startWrite
  dsimp only
  split
  · exact refl c
  · split
    · exact ⟨rfl, rfl, id, id⟩
    · split
      · exact ⟨rfl, rfl, id, id⟩
      · exact ⟨rfl, rfl, id, id⟩

theorem handleWrite (ec : Bool) : Unsupervised c (c.handleWrite ec) := by
  unfold TcpClientImpl.handleWrite
  dsimp only
  split
  · exact refl c
  · split
    · exact failSession c
    · split
      · exact ⟨rfl, rfl, id, id⟩
      · exact ⟨rfl, rfl, id, id⟩

theorem startRead : Unsupervised c c.startRead := ⟨rfl, rfl, id, id⟩

theorem handleReadBody (ec : Bool) :
    Unsupervised c (c.handleReadBody (MessageHandler.bus p transfers) ec) := by
  unfold TcpClientImpl.handleReadBody
  dsimp only
  split
  · exact refl c
  · split
    · exact failSession c
    · have hset : Unsupervised c { c with readMsg := retrieveBody c.rbuf c.readMsg } :=
        ⟨rfl, rfl, id, id⟩
      have hbody : BusMessage.kMsgReadBody (retrieveBody c.rbuf c.readMsg) ≠ .kMsgClose := nofun
      have hsent := hset.trans (sendMessage p transfers _ hbody)
      exact hsent.trans (startRead _)

theorem occurs {c c' : TcpClientImpl MessageHandler} {e : Occurrence} {ready : List Ready}
    (hoccurs : IoClient.occurs c e = some (c', ready)) : Unsupervised c c' := by
  obtain ⟨closed, rbuf, io, trace, rfl⟩ := occurs_eq hoccurs
  exact ⟨rfl, rfl, id, id⟩

end Unsupervised

end TcpClientImpl

/-! ## The count of a connection -/

namespace Watch

variable {σ : Type} {w : Watch} {c : TcpClientImpl σ} {r : Ready}

theorem after_of_opens (hopens : c.opens r = true) : w.after c r = start := if_pos hopens

theorem after_of_ticks (hticks : c.ticks .checkHeartbeat = true) :
    w.after c .checkHeartbeat = w.tick := if_pos hticks

theorem after_eq_self (hopens : c.opens r = false) (hticks : c.ticks r = false)
    (hhears : c.hears r = false) : w.after c r = w := by
  simp [after, hopens, hticks, hhears]

end Watch

namespace TcpClientImpl

/-- The members of the client agree with what there was on the connection. -/
structure Counted (c : TcpClientImpl MessageHandler) (w : Watch) : Prop where
  recved : c.isRecvedHeartbeatRsp = w.heard
  bounded : c.heartBeatLostTimes ≤ 3
  lost : c.stopped = false → c.heartBeatLostTimes = min 3 w.missed
  started : c.stopped = false → c.sub.tcpSessionStarted = true

inductive Decides (c c' : TcpClientImpl MessageHandler) (w : Watch) : Prop
  | closes (hlost : w.Lost) (hclosed : c'.closed = true) (hposted : c'.io.posted = closing c.closed)
  | beats (hlost : ¬w.Lost) (hclosed : c'.closed = c.closed) (body : Bytes)
      (hposted : c'.io.posted = [.startWrite (fillHead { msgType := kHeartReq, body })])

variable (p : Platform) (transfers : Nat → Transfer) {c : TcpClientImpl MessageHandler} {w : Watch}

theorem sendHeartbeat_eq (hrunning : c.stopped = false)
    (hstarted : c.sub.tcpSessionStarted = true) :
    ∃ body trace, c.sendMessage (MessageHandler.bus p transfers) .kMsgHeartbeatReq =
      { c with
        trace := trace
        io.posted := c.io.posted ++ [.startWrite (fillHead { msgType := kHeartReq, body })] } := by
  have hout : (MessageHandler.bus p transfers).deliver c.io.now .kMsgHeartbeatReq c.sub =
      (c.sub, [{ msgType := kHeartReq
                 body := MessageHandler.encodeHeartbeatReq p c.io.now p.localIp }]) :=
    congrArg (Prod.mk c.sub) (if_pos hstarted)
  rw [sendMessage_eq, hout, hrunning]
  exact ⟨_, _, rfl⟩

namespace Counted

theorem of_unsupervised {c' : TcpClientImpl MessageHandler} (h : Counted c w)
    (hsame : Unsupervised c c') : Counted c' w where
  recved := hsame.recved.trans h.recved
  bounded := hsame.lost.trans_le h.bounded
  lost hrunning := hsame.lost.trans (h.lost (hsame.running hrunning))
  started hrunning := hsame.started (h.started (hsame.running hrunning))

theorem heartbeatTick (h : Counted c w) (hposted : c.io.posted = [])
    (hrunning : c.stopped = false) :
    Counted (c.heartbeatTick (MessageHandler.bus p transfers)) w.tick ∧
      Decides c (c.heartbeatTick (MessageHandler.bus p transfers)) w.tick := by
  have hstarted := h.started hrunning
  have hcount := h.lost hrunning
  have hfour := w.lost_tick_iff
  have hmissed := w.missed_tick
  rw [← h.recved] at hfour hmissed
  unfold TcpClientImpl.heartbeatTick
  by_cases hrecved : c.isRecvedHeartbeatRsp = true
  · obtain ⟨body, trace, hsent⟩ := sendHeartbeat_eq p transfers hrunning hstarted
    rw [if_pos hrecved] at hmissed
    rw [if_pos hrecved, hsent]
    refine ⟨⟨rfl, Nat.zero_le _, fun _ => ?_, fun _ => hstarted⟩, .beats ?_ rfl body ?_⟩
    · rw [hmissed]
      rfl
    · simp [hfour, hrecved]
    · simp [hposted]
  · rw [if_neg hrecved] at hmissed
    rw [if_neg hrecved]
    have hsilent : c.isRecvedHeartbeatRsp = false := by simpa using hrecved
    by_cases hthree : c.heartBeatLostTimes ≥ 3
    · have hclose := (Unsupervised.close c).trans (⟨rfl, rfl, id, id⟩ :
        Unsupervised c.close (c.close.setHeartbeatTimer none))
      have hsame := hclose.trans (Unsupervised.startReconnect _)
      obtain ⟨hlink, hclosing⟩ := close_spec c
      obtain ⟨hreconnect, hqueue⟩ := startReconnect_spec (c.close.setHeartbeatTimer none)
      obtain ⟨_, _, _, honly⟩ := Link.onlyReconnects_startReconnect
        (c.close.setHeartbeatTimer none).link
      rw [hposted, List.nil_append] at hclosing
      rw [if_pos hthree]
      constructor
      · refine ⟨hsame.recved.trans hsilent, hsame.lost.trans_le h.bounded, fun _ => ?_,
          fun _ => hsame.started hstarted⟩
        rw [hsame.lost, hmissed]
        omega
      · apply Decides.closes
        · exact hfour.mpr ⟨hsilent, by omega⟩
        · have hclosed := congrArg Link.closed (hreconnect.trans honly)
          exact hclosed.trans (congrArg Link.closed hlink)
        · exact hqueue.trans hclosing
    · obtain ⟨body, trace, hsent⟩ := sendHeartbeat_eq p transfers
        (c := { c with heartBeatLostTimes := c.heartBeatLostTimes + 1 }) hrunning hstarted
      rw [if_neg hthree, hsent]
      refine ⟨⟨hsilent, by dsimp only; omega, fun _ => ?_, fun _ => hstarted⟩,
        .beats ?_ rfl body ?_⟩
      · rw [hmissed]
        dsimp only
        omega
      · intro hlost
        have hbefore := (hfour.mp hlost).2
        omega
      · simp [hposted]

theorem checkHeartbeat (h : Counted c w) (hposted : c.io.posted = [])
    (hticks : c.ticks .checkHeartbeat = true) :
    Counted (c.checkHeartbeat (MessageHandler.bus p transfers)) w.tick ∧
      Decides c (c.checkHeartbeat (MessageHandler.bus p transfers)) w.tick := by
  have hboth : c.stopped = false ∧ c.heartbeatExpired = true := by simpa [ticks] using hticks
  obtain ⟨hrunning, hexpired⟩ := hboth
  obtain ⟨hcounted, hdecides⟩ := h.heartbeatTick p transfers hposted hrunning
  unfold TcpClientImpl.checkHeartbeat
  rw [if_neg (by simp [hrunning]), if_pos hexpired]
  refine ⟨hcounted.of_unsupervised ⟨rfl, rfl, id, id⟩, ?_⟩
  cases hdecides with
  | closes hlost hclosed hposted' => exact .closes hlost hclosed hposted'
  | beats hlost hclosed body hposted' => exact .beats hlost hclosed body hposted'

theorem checkHeartbeat_early (h : Counted c w) (hticks : c.ticks .checkHeartbeat = false) :
    Counted (c.checkHeartbeat (MessageHandler.bus p transfers)) w := by
  unfold TcpClientImpl.checkHeartbeat
  by_cases hstopped : c.stopped = true
  · rw [if_pos hstopped]
    exact h
  · have hearly : c.heartbeatExpired = false := by simpa [ticks, hstopped] using hticks
    rw [if_neg hstopped, if_neg (by simp [hearly])]
    exact h.of_unsupervised ⟨rfl, rfl, id, id⟩

/-- On a running session the header of a heart_rsp is heard, whether or not it is accepted. -/
theorem handleReadHeader (h : Counted c w) :
    Counted (c.handleReadHeader (MessageHandler.bus p transfers) false)
      (if c.stopped = false ∧ kHeartRsp = (retrieveHeader c.rbuf c.readMsg).1.msgType then
        { w with heard := true } else w) := by
  unfold TcpClientImpl.handleReadHeader
  by_cases hstopped : c.stopped = true
  · rw [if_pos hstopped, if_neg (by simp [hstopped])]
    exact h
  · have hrunning : c.stopped = false := by simpa using hstopped
    rw [if_neg hstopped, if_neg (by decide)]
    generalize retrieveHeader c.rbuf c.readMsg = result
    obtain ⟨msg, headerError⟩ := result
    have hread : Unsupervised c (c.readRest msg) := ⟨rfl, rfl, id, id⟩
    have hnoted : Counted ((c.readRest msg).noteHeartbeatRsp msg)
        (if c.stopped = false ∧ kHeartRsp = msg.msgType then { w with heard := true } else w) := by
      have hkept := h.of_unsupervised hread
      unfold noteHeartbeatRsp
      by_cases hheart : kHeartRsp = msg.msgType
      · rw [if_pos hheart, if_pos ⟨hrunning, hheart⟩]
        exact ⟨rfl, hkept.bounded, hkept.lost, hkept.started⟩
      · rw [if_neg hheart, if_neg fun hboth => hheart hboth.2]
        exact hkept
    have hheader : BusMessage.kMsgReadHeader msg ≠ .kMsgClose := nofun
    have hsent := hnoted.of_unsupervised (.sendMessage p transfers _ hheader)
    cases headerError with
    | false => exact hsent
    | true => exact hsent.of_unsupervised (.failSession _)

theorem handleRead (h : Counted c w) (op : ReadOp) (ec : Bool) :
    Counted (c.completeRead (MessageHandler.bus p transfers) op.handler ec)
      (w.after c (.handleRead op ec)) := by
  have hquiet (hhears : c.hears (.handleRead op ec) = false) : w.after c (.handleRead op ec) = w :=
    Watch.after_eq_self rfl rfl hhears
  cases hop : op.handler with
  | handleReadBody =>
      rw [hquiet (by simp [hears, hop])]
      exact h.of_unsupervised (.handleReadBody p transfers c ec)
  | handleReadHeader =>
      cases ec with
      | true =>
          rw [hquiet (by simp [hears])]
          simp only [completeRead, TcpClientImpl.handleReadHeader]
          split
          · exact h
          · exact h.of_unsupervised (.failSession c)
      | false =>
          have hafter : w.after c (.handleRead op false) =
              if c.stopped = false ∧ kHeartRsp = (retrieveHeader c.rbuf c.readMsg).1.msgType then
                { w with heard := true } else w := by
            simp [Watch.after, opens, ticks, hears, hop]
          rw [hafter]
          exact h.handleReadHeader p transfers

theorem handleConnect (h : Counted c w) (ec : Bool)
    (hfresh : c.opens (.handleConnect ec) = true → c.heartBeatLostTimes = 0) :
    Counted (c.handleConnect (MessageHandler.bus p transfers) ec)
      (w.after c (.handleConnect ec)) := by
  by_cases hopens : c.opens (.handleConnect ec) = true
  · have hboth : ec = false ∧ c.io.isOpen = true := by simpa [opens] using hopens
    obtain ⟨rfl, hopen⟩ := hboth
    have hzero := hfresh hopens
    rw [Watch.after_of_opens hopens]
    unfold TcpClientImpl.handleConnect
    rw [if_neg (by decide), if_neg (by simp [hopen])]
    simp only [sendMessage_eq]
    exact ⟨rfl, hzero.trans_le (Nat.zero_le _), fun _ => hzero, fun _ => rfl⟩
  · have hfailed : c.opens (.handleConnect ec) = false := by simpa using hopens
    rw [Watch.after_eq_self hfailed rfl rfl]
    exact h.of_unsupervised (.handleConnect p transfers c hfailed)

theorem handle (h : Counted c w) (hposted : c.io.posted = []) (r : Ready)
    (hfresh : c.opens r = true → c.heartBeatLostTimes = 0) :
    Counted (c.handle (MessageHandler.bus p transfers) r) (w.after c r) := by
  cases r with
  | handleConnect ec => exact h.handleConnect p transfers ec hfresh
  | handleRead op ec => exact h.handleRead p transfers op ec
  | handleWrite op ec => exact h.of_unsupervised (.handleWrite c ec)
  | checkHeartbeat =>
      by_cases hticks : c.ticks .checkHeartbeat = true
      · rw [Watch.after_of_ticks hticks]
        exact (h.checkHeartbeat p transfers hposted hticks).1
      · have hearly : c.ticks .checkHeartbeat = false := by simpa using hticks
        rw [Watch.after_eq_self rfl hearly rfl]
        exact h.checkHeartbeat_early p transfers hearly
  | doReconnect => exact h.of_unsupervised ⟨rfl, rfl, id, id⟩
  | posted posted =>
      cases posted with
      | startWrite msg => exact h.of_unsupervised (.startWrite c msg)
      | doClose =>
          simp only [TcpClientImpl.handle, doClose, sendMessage_eq]
          refine ⟨h.recved, Nat.zero_le _, fun hrunning => ?_, fun hrunning => ?_⟩
          · cases hrunning
          · cases hrunning

end Counted

end TcpClientImpl

/-! ## Runs -/

namespace Supervised

open TcpClientImpl IoLoop

variable (p : Platform) (transfers : Nat → Transfer)

theorem counted_step {s s' : Supervised} {e : IoLoop.Event}
    (h : Counted s.loop.state.client s.watch) (hfresh : s.loop.CountsAfresh e)
    (hstep : step p transfers s e = some s') : Counted s'.loop.state.client s'.watch := by
  obtain ⟨loop, hloop, rfl⟩ := Option.map_eq_some_iff.mp hstep
  cases e with
  | env e =>
      obtain ⟨state, ready, henv, rfl⟩ := step_env_eq_some.mp hloop
      obtain ⟨⟨c, new⟩, hoccurs, heq⟩ := Option.map_eq_some_iff.mp henv
      obtain ⟨rfl, rfl⟩ := Prod.mk.inj heq
      have hsame := h.of_unsupervised (.occurs hoccurs)
      exact hsame.of_unsupervised ⟨rfl, rfl, id, id⟩
  | run =>
      obtain ⟨r, rest, hqueue, rfl⟩ := step_run_eq_some.mp hloop
      have hnext : s.watch.next s.loop .run = s.watch.after s.loop.state.client r := by
        simp [Watch.next, hqueue]
      have hopens (hopens : s.loop.state.client.opens r = true) :
          s.loop.state.client.heartBeatLostTimes = 0 := hfresh ⟨r, by simp [hqueue], hopens⟩
      have hhandled := h.handle p transfers s.loop.state.posted r hopens
      dsimp only
      rw [hnext]
      exact hhandled.of_unsupervised ⟨rfl, rfl, id, id⟩

theorem closing_ne_write (closed : Bool) (msg : TcpMessage) :
    closing closed ≠ [.startWrite msg] := by
  cases closed with
  | true => nofun
  | false => nofun

theorem supervises_of_counted {s : Supervised} (h : Counted s.loop.state.client s.watch) :
    Supervises p transfers s := by
  refine ⟨h.bounded, ?_⟩
  rintro s' hstep ⟨r, hhead, hticks⟩
  obtain ⟨loop, hloop, rfl⟩ := Option.map_eq_some_iff.mp hstep
  obtain ⟨r', rest, hqueue, rfl⟩ := step_run_eq_some.mp hloop
  obtain rfl : r' = r := by simpa [hqueue] using hhead
  cases r' with
  | checkHeartbeat =>
      obtain ⟨-, hdecides⟩ := h.checkHeartbeat p transfers s.loop.state.posted hticks
      have hnext : s.watch.next s.loop .run = s.watch.tick := by
        simp [Watch.next, hqueue, Watch.after_of_ticks hticks]
      have hqueue' (posted : List Posted) (hposted : (s.loop.state.client.checkHeartbeat
          (MessageHandler.bus p transfers)).io.posted = posted) :
          rest ++ ((IoClient.program (MessageHandler.bus p transfers)).handler s.loop.state
            .checkHeartbeat).2 = s.loop.queue.tail ++ posted.map .posted := by
        rw [← hposted, hqueue]
        rfl
      dsimp only
      rw [hnext]
      cases hdecides with
      | closes hlost hclosed hposted =>
          have hcloses := And.intro hclosed (hqueue' _ hposted)
          exact ⟨⟨fun _ => hlost, fun _ => hcloses⟩, fun hnot => absurd hlost hnot⟩
      | beats hlost hclosed body hposted =>
          refine ⟨⟨fun hcloses => ?_, fun hfour => absurd hfour hlost⟩,
            fun _ => ⟨hclosed, body, hqueue' _ hposted⟩⟩
          have hsame := (hqueue' _ hposted).symm.trans hcloses.2
          have hmap := List.append_cancel_left hsame
          have hinj : Function.Injective Ready.posted := fun _ _ => Ready.posted.inj
          exact absurd (List.map_injective_iff.mpr hinj hmap).symm (closing_ne_write _ _)
  | _ => cases hticks

theorem counted_of_run (cfg : ClientConfig) (h : MessageHandler) {events : List IoLoop.Event}
    {s : Supervised}
    (hfresh : AllSteps (step p transfers) (fun s e => s.loop.CountsAfresh e) (start cfg h) events)
    (hrun : run (step p transfers) (start cfg h) events = some s) :
    Counted s.loop.state.client s.watch := by
  have hinit : Counted (start cfg h).loop.state.client Watch.start :=
    ⟨rfl, Nat.zero_le _, nofun, nofun⟩
  exact run_guarded (I := fun s : Supervised => Counted s.loop.state.client s.watch)
    (fun s e s' h hfresh hstep => counted_step p transfers h hfresh hstep) hinit hfresh hrun

/-- In every run in which each connection begins with nothing left of an earlier count, and in
every state of it: a tick closes the connection if and only if this tick and the three before it
were silent, any other tick sends one heartbeat request, and the count never exceeds three. -/
theorem supervises_run (cfg : ClientConfig) (sysUpdateHandler : SysUpdateHandler)
    (fileInfos : Bytes) {events : List IoLoop.Event} {s : Supervised}
    (hfresh : AllSteps (step p transfers) (fun s e => s.loop.CountsAfresh e)
      (start cfg (MessageHandler.start cfg sysUpdateHandler fileInfos)) events)
    (hrun : run (step p transfers) (start cfg (MessageHandler.start cfg sysUpdateHandler fileInfos))
      events = some s) : Supervises p transfers s :=
  supervises_of_counted p transfers (counted_of_run p transfers cfg _ hfresh hrun)

/-! ## One reconnect at a time -/

/-- While a session that has ended still has a count, `doClose` comes before any reconnect. -/
structure Settled (s : IoLoop MessageHandler) : Prop where
  ended : s.link.stopped = true → s.state.client.heartBeatLostTimes ≠ 0 → s.connecting = 0 ∧
    (∃ r ∈ s.queue, r.isClose = true) ∧
    Leads (fun r : Ready => r.isClose = true) (fun r => r.isReconnect = true) s.queue

theorem handle_of_stopped {bus : Bus MessageHandler} {c : TcpClientImpl MessageHandler} {r : Ready}
    (hneeds : r.needsSession = true) (hstopped : c.stopped = true) : c.handle bus r = c := by
  cases r with
  | handleRead op ec =>
      cases hop : op.handler with
      | handleReadHeader => simp [handle, hop, completeRead, handleReadHeader, hstopped]
      | handleReadBody => simp [handle, hop, completeRead, handleReadBody, hstopped]
  | handleWrite op ec => exact if_pos hstopped
  | checkHeartbeat => exact if_pos hstopped
  | posted posted =>
      cases posted with
      | startWrite msg => exact if_pos hstopped
      | doClose => cases hneeds
  | _ => cases hneeds

theorem heartBeatLostTimes_doClose (bus : Bus MessageHandler) (c : TcpClientImpl MessageHandler) :
    (c.doClose bus).heartBeatLostTimes = 0 := rfl

theorem settled_env {s s' : IoLoop MessageHandler} {e : Occurrence} (h : Settled s)
    (hstep : IoLoop.step (MessageHandler.bus p transfers) s (.env e) = some s') : Settled s' := by
  obtain ⟨hstopped, hconnecting⟩ := same_of_progress hstep
  obtain ⟨state, ready, henv, rfl⟩ := step_env_eq_some.mp hstep
  obtain ⟨⟨c, new⟩, hoccurs, heq⟩ := Option.map_eq_some_iff.mp henv
  obtain ⟨rfl, rfl⟩ := Prod.mk.inj heq
  have hlost : c.heartBeatLostTimes = s.state.client.heartBeatLostTimes :=
    (Unsupervised.occurs hoccurs).lost
  constructor
  intro hend hcount
  obtain ⟨hidle, hclose, hleads⟩ := h.ended (hstopped.symm.trans hend) (hlost ▸ hcount)
  obtain ⟨r, hr, hisClose⟩ := hclose
  refine ⟨hconnecting.trans hidle, ⟨r, List.mem_append_left _ hr, hisClose⟩, ?_⟩
  exact hleads.append ⟨r, hr, hisClose⟩

theorem settled_of_ends {s s' : IoLoop MessageHandler} {r : Ready}
    {rest : List Ready} {posted : List Posted} (h : Orderly s) (hturn : Turn s s' r rest posted)
    (houtcome : Outcome s.state.client r s'.link posted) (hstopped : s.link.stopped = false)
    (hend : s'.link.stopped = true) (hclose : r ≠ .posted .doClose) : Settled s' := by
  have hidle := h.disciplined.running hstopped
  have hbefore := hturn.connecting_before
  have hrunning {q : Prop} (hsame : s'.link.stopped = s.link.stopped) : q := by
    rw [hsame, hstopped] at hend
    cases hend
  generalize hl : s'.link = l at houtcome
  have hkept {α : Type} (field : Link → α) (hsame : field l = field s.link) :
      field s'.link = field s.link := (congrArg field hl).trans hsame
  cases houtcome with
  | lost r reads msgs _ hlost =>
      have hneeds := needsSession_of_losesSession hlost
      obtain ⟨_, _, _, hlink⟩ :=
        Link.onlyReconnects_lost { s.link with reads := s.state.client.io.reads ++ reads }
      have hconnects : s'.link.connects = s.link.connects :=
        (congrArg Link.connects (hl.trans hlink)).trans rfl
      have hconnecting := (hturn.counts hneeds).2
      refine ⟨fun _ _ => ⟨by omega, ?_, hturn.leads_isReconnect hneeds (h.leads hstopped)⟩⟩
      rw [hturn.queue', List.map_append, ← List.append_assoc]
      refine Ready.exists_isClose fun hclosed => ?_
      obtain ⟨later, hlater, hisClose⟩ := hturn.exists_isClose hneeds (h.closing hstopped hclosed)
      exact ⟨later, List.mem_append_left _ hlater, hisClose⟩
  | connectFailed ec msgs hfailed =>
      have hone : (Ready.handleConnect ec).isConnect = true := rfl
      rw [hidle, if_pos hone] at hbefore
      omega
  | connected op msgs hopen hop =>
      have hbegins : s'.link.stopped = false := (congrArg Link.stopped hl).trans rfl
      rw [hbegins] at hend
      cases hend
  | heartbeatLost _ hmissed =>
      obtain ⟨_, _, _, hlink⟩ := Link.onlyReconnects_startReconnect { s.link with closed := true }
      exact hrunning ((congrArg Link.stopped (hl.trans hlink)).trans rfl)
  | written op _ =>
      obtain ⟨_, _, _, hlink⟩ := Link.onlyWrites_written s.link
      exact hrunning ((congrArg Link.stopped (hl.trans hlink)).trans rfl)
  | accepted msg _ =>
      obtain ⟨_, _, _, hlink⟩ := Link.onlyWrites_accept s.link msg
      exact hrunning ((congrArg Link.stopped (hl.trans hlink)).trans rfl)
  | closed msgs => exact absurd rfl hclose
  | _ => exact hrunning (hkept _ rfl)

theorem stopped_handleConnect {c : TcpClientImpl MessageHandler} {ec : Bool}
    (hopens : c.opens (.handleConnect ec) = true) :
    (c.handleConnect (MessageHandler.bus p transfers) ec).stopped = false := by
  have hboth : ec = false ∧ c.io.isOpen = true := by simpa [opens] using hopens
  obtain ⟨rfl, hopen⟩ := hboth
  unfold TcpClientImpl.handleConnect
  rw [if_neg (by decide), if_neg (by simp [hopen])]
  simp only [sendMessage_eq]
  rfl

theorem settled_run {s s' : IoLoop MessageHandler} (horderly : Orderly s) (h : Settled s)
    (hstep : IoLoop.step (MessageHandler.bus p transfers) s .run = some s') : Settled s' := by
  obtain ⟨r, rest, hqueue, heq⟩ := step_run_eq_some.mp hstep
  have hturn : Turn s s' r rest
      (s.state.client.handle (MessageHandler.bus p transfers) r).io.posted := by
    rw [heq]
    exact ⟨hqueue, rfl, rfl⟩
  have hlink : s'.link = (s.state.client.handle (MessageHandler.bus p transfers) r).link := by
    rw [heq]
    rfl
  have hlost : s'.state.client.heartBeatLostTimes =
      (s.state.client.handle (MessageHandler.bus p transfers) r).heartBeatLostTimes := by
    rw [heq]
    rfl
  have houtcome := outcome_handle (MessageHandler.bus p transfers) s.state.posted r
  rw [← hlink] at houtcome
  by_cases hclose : r = .posted .doClose
  · subst hclose
    exact ⟨fun _ hcount => absurd (hlost.trans (heartBeatLostTimes_doClose _ _)) hcount⟩
  · refine ⟨fun hend hcount => ?_⟩
    by_cases hstopped : s.link.stopped = true
    · by_cases hneeds : r.needsSession = true
      · rw [handle_of_stopped hneeds hstopped] at hlost hlink
        obtain ⟨hidle, hqueued, hleads⟩ := h.ended hstopped (hlost ▸ hcount)
        have hconnecting := (hturn.counts hneeds).2
        obtain ⟨later, hlater, hisClose⟩ := hturn.exists_isClose hneeds hqueued
        have hconnects : s'.link.connects = s.link.connects := congrArg Link.connects hlink
        exact ⟨by omega, ⟨later, hturn.mem_of_rest hlater, hisClose⟩,
          hturn.leads_isReconnect hneeds hleads⟩
      · have hbefore := hturn.connecting_before
        cases r with
        | handleConnect ec =>
            have hone : (Ready.handleConnect ec).isConnect = true := rfl
            rw [if_pos hone] at hbefore
            by_cases hopens : s.state.client.opens (.handleConnect ec) = true
            · have hbegins := stopped_handleConnect p transfers hopens
              rw [hlink] at hend
              exact absurd (hbegins.symm.trans hend) (by decide)
            · have hsame := (Unsupervised.handleConnect p transfers s.state.client
                (by simpa using hopens)).lost
              have hidle := (h.ended hstopped ((hlost.trans hsame) ▸ hcount)).1
              omega
        | doReconnect =>
            obtain ⟨-, -, hleads⟩ := h.ended hstopped (hlost ▸ hcount)
            rw [hqueue] at hleads
            exact absurd rfl (hleads.not_head (by decide))
        | posted posted =>
            cases posted with
            | startWrite msg => exact absurd rfl hneeds
            | doClose => exact absurd rfl hclose
        | _ => exact absurd rfl hneeds
    · exact (settled_of_ends horderly hturn houtcome (by simpa using hstopped) hend hclose).ended
        hend hcount

/-- When no loss is noticed late, so that there is one reconnect at a time, every connection is
counted afresh. -/
theorem countsAfresh_of_noticedInTime (cfg : ClientConfig) (h : MessageHandler)
    {events : List IoLoop.Event}
    (hintime : AllSteps (step p transfers) (fun s e => s.loop.NoticedInTime e) (start cfg h)
      events) :
    AllSteps (step p transfers) (fun s e => s.loop.CountsAfresh e) (start cfg h) events := by
  have hinit : Orderly (start cfg h).loop ∧ Settled (start cfg h).loop :=
    ⟨.ofStopped rfl le_rfl, ⟨fun _ hcount => absurd rfl hcount⟩⟩
  refine allSteps_of_guarded (I := fun s : Supervised => Orderly s.loop ∧ Settled s.loop) ?_ ?_
    hinit hintime
  · rintro s e s' ⟨horderly, hsettled⟩ hintime hstep
    obtain ⟨loop, hloop, rfl⟩ := Option.map_eq_some_iff.mp hstep
    cases e with
    | env e => exact ⟨horderly.ofProgress hloop, settled_env p transfers hsettled hloop⟩
    | run =>
        exact ⟨horderly.ofOutcome hloop hintime, settled_run p transfers horderly hsettled hloop⟩
  · rintro s e ⟨horderly, hsettled⟩ -
    cases e with
    | env e => trivial
    | run =>
        rintro ⟨r, hhead, hopens⟩
        by_contra hcount
        have hconnect : r.isConnect = true := by
          cases r with
          | handleConnect ec => rfl
          | _ => cases hopens
        have hone : 0 < s.loop.connecting := Nat.lt_add_left _
          (List.countP_pos_iff.mpr ⟨r, List.mem_of_mem_head? hhead, hconnect⟩)
        cases hstopped : s.loop.link.stopped with
        | true =>
            have hidle := (hsettled.ended hstopped hcount).1
            omega
        | false =>
            have hidle := horderly.disciplined.running hstopped
            omega

/-- So the client supervises its sessions in every run in which the loss of a connection is noticed
before the reconnect it causes. -/
theorem supervises_of_noticedInTime (cfg : ClientConfig) (h : MessageHandler)
    {events : List IoLoop.Event} {s : Supervised}
    (hintime : AllSteps (step p transfers) (fun s e => s.loop.NoticedInTime e) (start cfg h)
      events)
    (hrun : run (step p transfers) (start cfg h) events = some s) : Supervises p transfers s :=
  supervises_of_counted p transfers (counted_of_run p transfers cfg h
    (countsAfresh_of_noticedInTime p transfers cfg h hintime) hrun)

/-! ## Two counts -/

def sampleStart (cfg : ClientConfig) : Supervised :=
  start cfg (MessageHandler.start cfg
    (SysUpdateHandler.start cfg.httpServer ⟨fun _ => none⟩) [])

def fastConfig : ClientConfig := { sampleConfig with heartbeatInterval := 2 }

def beat (i : Nat) : List IoLoop.Event :=
  [.env (.tick 2000), .env (.heartbeatDue i), .run, .run]

def connect : List IoLoop.Event := [.env (.connectDone false), .run, .run]

def threeSilent : List IoLoop.Event := connect ++ beat 0 ++ beat 0 ++ beat 0

theorem supervises_threeSilent :
    ∃ s, run (step samplePlatform fun _ => ⟨true, 0, []⟩) (sampleStart fastConfig)
      (threeSilent ++ [.env (.tick 2000), .env (.heartbeatDue 0)]) = some s ∧
      Supervises samplePlatform (fun _ => ⟨true, 0, []⟩) s := by
  have hsteps : (run (step samplePlatform fun _ => ⟨true, 0, []⟩) (sampleStart fastConfig)
      (threeSilent ++ [.env (.tick 2000), .env (.heartbeatDue 0)])).isSome ∧
      AllSteps (step samplePlatform fun _ => ⟨true, 0, []⟩) (fun s e => s.loop.CountsAfresh e)
        (sampleStart fastConfig) (threeSilent ++ [.env (.tick 2000), .env (.heartbeatDue 0)]) := by
    decide +kernel
  obtain ⟨s, hrun⟩ := Option.isSome_iff_exists.mp hsteps.1
  exact ⟨s, hrun, supervises_run samplePlatform _ _ _ _ hsteps.2 hrun⟩

/-- The loss is noticed twice, the second time after the reconnect timer has expired, so a second
reconnect comes when the next connection has missed two heartbeats. -/
def twoReconnects : List IoLoop.Event :=
  threeSilent ++ [.env (.tick 2000), .env (.heartbeatDue 0), .env (.readDone 0 true), .run,
    .env (.tick 5000), .run, .run, .env (.reconnectDue 0), .run] ++
  connect ++ beat 0 ++ beat 1 ++
  [.env (.tick 1000), .env (.arrive [1, 1, 1, 1, 16, 0, 0, 0, 0xDF, 7, 0, 0, 0, 0, 0, 0]),
    .env (.reconnectDue 0), .env (.readDone 0 false), .run, .env (.connectDone false), .run, .run,
    .run]

/-- The third connection is closed at its second silent tick. -/
theorem closes_at_second_tick : ¬ ∀ (p : Platform) (transfers : Nat → Transfer)
    (cfg : ClientConfig) (sysUpdateHandler : SysUpdateHandler) (fileInfos : Bytes)
    (events : List IoLoop.Event) (s : Supervised),
    run (step p transfers) (start cfg (MessageHandler.start cfg sysUpdateHandler fileInfos))
      events = some s → Supervises p transfers s := by
  intro h
  have hbad : ∃ s ∈ run (step samplePlatform fun _ => ⟨true, 0, []⟩) (sampleStart fastConfig)
      (twoReconnects ++ beat 0 ++ [.env (.tick 2000), .env (.heartbeatDue 0)]), s.loop.Ticks ∧
      ∃ s' ∈ step samplePlatform (fun _ => ⟨true, 0, []⟩) s .run, s.loop.Closes s'.loop ∧
        s'.watch = ⟨false, [true, true]⟩ := by
    decide +kernel
  obtain ⟨s, hrun, hticks, s', hstep, hcloses, hwatch⟩ := hbad
  have hlost := ((h _ _ _ _ _ _ s hrun).decides s' hstep hticks).1.mp hcloses
  rw [hwatch] at hlost
  exact absurd hlost (by decide)

end Supervised

end CloudEdgePush.Client
