import CloudEdgePush.Lib.EventLoop
import CloudEdgePush.Client.Handlers

/-!
# The client on its `io_context`

`TcpClientImpl.step` lets outstanding operations complete in any order.  This module is about
the order: an operation that completes makes its handler ready, and the one thread of the
`io_context` runs the handlers in the order in which they became ready, those of `post` and of
completed operations alike.  Time, the network and the user of the client are the environment.

`Link` is the part of the client that decides about connections, the reconnect timer and the
write queue; `Outcome` says what a handler can do to it, `Progress` what the environment can.
-/

namespace CloudEdgePush.Client

open CloudEdgePush.Lib CloudEdgePush.Lib.Bytes

inductive Ready
  | handleConnect (ec : Bool)
  | handleRead (op : ReadOp) (ec : Bool)
  | handleWrite (op : WriteOp) (ec : Bool)
  | checkHeartbeat
  | doReconnect
  | posted (p : Posted)
deriving DecidableEq, Repr

namespace TcpClientImpl

variable {σ : Type}

/-- `doReconnect` ignores its error code, so an aborted wait is not told from an expired one. -/
def handle (bus : Bus σ) (c : TcpClientImpl σ) : Ready → TcpClientImpl σ
  | .handleConnect ec => c.handleConnect bus ec
  | .handleRead op ec => c.completeRead bus op.handler ec
  | .handleWrite _ ec => c.handleWrite ec
  | .checkHeartbeat => c.checkHeartbeat bus
  | .doReconnect => c.doReconnect
  | .posted (.startWrite msg) => c.startWrite msg
  | .posted .doClose => c.doClose bus

theorem Frame.handle {bus : Bus σ} {R : TcpClientImpl σ → TcpClientImpl σ → Prop} (hR : Frame bus R)
    (hheader : ∀ c, R c (c.handleReadHeader bus false))
    (hbody : ∀ c, R c (c.handleReadBody bus false))
    (hconnect : ∀ c, c.io.isOpen = true → R c (c.handleConnect bus false)) (c : TcpClientImpl σ)
    (r : Ready) : R c (c.handle bus r) := by
  cases r with
  | handleConnect ec =>
      by_cases hfailed : ec = true ∨ c.io.isOpen = false
      · exact hR.handleConnect_failed c hfailed
      · obtain ⟨hec, hopen⟩ := not_or.mp hfailed
        obtain rfl : ec = false := by simpa using hec
        exact hconnect c (by simpa using hopen)
  | handleRead op ec =>
      cases ec with
      | true => exact hR.completeRead_failed c op.handler
      | false =>
          simp only [TcpClientImpl.handle, completeRead]
          split
          · exact hheader c
          · exact hbody c
  | handleWrite op ec => exact hR.handleWrite c ec
  | checkHeartbeat => exact hR.checkHeartbeat c
  | doReconnect => exact hR.asyncConnect c
  | posted posted =>
      cases posted with
      | startWrite msg => exact hR.startWrite c msg
      | doClose => exact hR.doClose c

def acceptedBy (c : TcpClientImpl σ) : Ready → Option (Nat × TcpMessage)
  | .posted (.startWrite msg) => if c.stopped then none else some (c.io.connection, msg)
  | _ => none

end TcpClientImpl

/-- The client between two handlers, and the messages that `startWrite` accepted so far, each
with its connection. -/
structure IoClient (σ : Type) where
  client : TcpClientImpl σ
  accepted : List (Nat × TcpMessage)
  posted : client.io.posted = []
deriving DecidableEq

inductive Occurrence
  | tick (ms : Nat)
  | arrive (chunk : Bytes)
  | connectDone (ec : Bool)
  | readDone (i : Nat) (ec : Bool)
  | writeDone (i : Nat) (ec : Bool)
  | heartbeatDue (i : Nat)
  | reconnectDue (i : Nat)
  /-- The user of the client calls `write`. -/
  | write (msg : TcpMessage)
  /-- The user of the client calls `close`. -/
  | close
deriving DecidableEq, Repr

namespace IoClient

variable {σ : Type}

def flush (c : TcpClientImpl σ) (accepted : List (Nat × TcpMessage)) : IoClient σ × List Ready :=
  (⟨{ c with io.posted := [] }, accepted, rfl⟩, c.io.posted.map .posted)

def occurs (c : TcpClientImpl σ) : Occurrence → Option (TcpClientImpl σ × List Ready)
  | .tick ms => some ({ c with io.now := c.io.now + ms }, [])
  | .arrive chunk =>
      if c.io.isOpen then some ({ c with io.inbox := c.io.inbox ++ chunk }, []) else none
  | .connectDone ec =>
      if c.io.connects = 0 then none
      else
        let c := { c with io.connects := c.io.connects - 1 }
        some (if ec then c else c.establish, [.handleConnect ec])
  | .readDone i ec =>
      match c.io.reads[i]? with
      | none => none
      | some op =>
          let c := { c with io.reads := c.io.reads.eraseIdx i }
          if ec then some (c, [.handleRead op true])
          else if op.connection = c.io.connection ∧ c.io.isOpen ∧ op.length ≤ c.io.inbox.length then
            some (c.takeInbox op, [.handleRead op false])
          else none
  | .writeDone i ec =>
      match c.io.writes[i]? with
      | none => none
      | some op =>
          let c := { c with io.writes := c.io.writes.eraseIdx i }
          if ec ∨ op.connection = c.io.connection ∧ c.io.isOpen then some (c, [.handleWrite op ec])
          else none
  | .heartbeatDue i =>
      match c.io.heartbeatWaits[i]? with
      | none => none
      | some aborted =>
          if aborted ∨ (∃ expiry ∈ c.io.heartbeatExpiry, expiry ≤ c.io.now) then
            some ({ c with io.heartbeatWaits := c.io.heartbeatWaits.eraseIdx i },
              [.checkHeartbeat])
          else none
  | .reconnectDue i =>
      match c.io.reconnectWaits[i]? with
      | none => none
      | some aborted =>
          if aborted ∨ c.io.reconnectExpiry ≤ c.io.now then
            some ({ c with io.reconnectWaits := c.io.reconnectWaits.eraseIdx i }, [.doReconnect])
          else none
  | .write msg => some (c.write msg, [])
  | .close => some (c.close, [])

def program (bus : Bus σ) : EventLoop.Program (IoClient σ) Ready Occurrence where
  environment s e :=
    (occurs s.client e).map fun next =>
      ((flush next.1 s.accepted).1, next.2 ++ (flush next.1 s.accepted).2)
  handler s r := flush (s.client.handle bus r) (s.accepted ++ (s.client.acceptedBy r).toList)

end IoClient

abbrev IoLoop (σ : Type) := EventLoop.Loop (IoClient σ) Ready

namespace IoLoop

variable {σ : Type}

abbrev Event := EventLoop.Event Occurrence

def step (bus : Bus σ) (s : IoLoop σ) (e : Event) : Option (IoLoop σ) :=
  EventLoop.step (IoClient.program bus) s e

def start (cfg : ClientConfig) (sub : σ) : IoLoop σ :=
  ⟨⟨(TcpClientImpl.init cfg sub).start, [], rfl⟩, []⟩

/-! ## A server that does not answer -/

def heartbeatPeriod : List Event := [.env (.tick 10000), .env (.heartbeatDue 0), .run]

/-- The client connects, and three heartbeats are not answered. -/
def threePeriods : List Event :=
  [.env (.connectDone false), .run] ++ heartbeatPeriod ++ heartbeatPeriod ++ heartbeatPeriod

end IoLoop

end CloudEdgePush.Client
