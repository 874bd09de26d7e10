import Mathlib.Data.List.AList
import CloudEdgePush.Server.Json
import CloudEdgePush.Server.MessagePacket

/-!
# A session of the stream server

`main_proc.lua` and `message_proc.lua` for one connection: the reader (`_main_proc`), the
sender, the notify threads and the heartbeat timers, over the shared dictionaries.  A light
thread runs until it waits, so one event is one turn of a loop.

The queues have memory for what they are given; `client_types:set` makes room by dropping other
keys.  `ngx.thread.wait` raises when it is called from a timer, because a timer is not the parent
of the notify thread; all that `session_broken_clean` changes is changed before.
-/

namespace CloudEdgePush.Server

open CloudEdgePush.Server.MessagePacket

namespace MessageDef

def kLoginReq : Int := 2001
def kLoginRsp : Int := 2002
def kHeartReq : Int := 2011
def kHeartRsp : Int := 2012
def kUpdateFileNtf : Int := 2023
def kSendFileInfosNtf : Int := 2033

end MessageDef

open MessageDef

abbrev ClientTypes := AList fun _ : String => Json

/-- The map without the entries that it drops for want of memory. -/
def ClientTypes.evict (types : ClientTypes) (keys : List String) : ClientTypes :=
  keys.foldr AList.erase types

structure Shared where
  clientTypes : ClientTypes
  notifyMsgQueue : String → List (List UInt8)
  msgQueue : String → List (List UInt8)

structure Session where
  sessionid : String
  isLogin : Bool
  clientType : Option Json
  noHeartTime : Nat
  heartBeatFlag : Bool
  notifyMsgThread : Option Nat
  exit : Bool
  syncBytes : Int

/-- Where `_main_proc` is: in `recv_packet`, in `ngx.thread.wait`, or over. -/
inductive MainPhase
  | reading
  | waiting
  | ended
deriving DecidableEq, Repr

/-- What the server did for the session, in order: login requests with the type they carry,
heartbeat requests, and the ticks of the heartbeat monitor. -/
inductive Entry
  | loginReq (type : Option Json)
  | heartReq
  | tick
  | expired

def Entry.isTick : Entry → Bool
  | .tick => true
  | _ => false

structure Conn where
  session : Session
  shared : Shared
  main : MainPhase
  sender : Bool
  notifyThreads : List Nat
  spawned : Nat
  timers : Nat
  log : List Entry

/-- What nginx has left for a message: whether a timer can be created, and the keys that
`client_types:set` drops, among them its own if even that is not enough. -/
structure Resources where
  timerOk : Bool
  evicted : List String

/-- A Lua function returns or raises. -/
inductive Outcome (α : Type)
  | returned (result : α)
  | raised

namespace Conn

variable (cjson : Cjson)

def NO_HEART_BEAT_THRESHOLD : Nat := 6

/-- `run` and `_main_proc` up to the first `recv_packet`. -/
def connect (sessionid : String) (shared : Shared) : Conn where
  session :=
    { sessionid, isLogin := false, clientType := none, noHeartTime := 0, heartBeatFlag := false
      notifyMsgThread := none, exit := false, syncBytes := 0 }
  shared := shared
  main := .reading
  sender := true
  notifyThreads := []
  spawned := 0
  timers := 0
  log := []

/-! ## `message_proc.lua` -/

/-- `session_broken_clean`, up to its wait. -/
def sessionBrokenClean (c : Conn) : Conn :=
  { c with
    session.isLogin := false
    shared.notifyMsgQueue := Function.update c.shared.notifyMsgQueue c.session.sessionid []
    shared.clientTypes := c.shared.clientTypes.erase c.session.sessionid }

def spawnNotify (c : Conn) : Conn :=
  { c with
    session.notifyMsgThread := some c.spawned
    notifyThreads := c.notifyThreads ++ [c.spawned]
    spawned := c.spawned + 1 }

def countTick (c : Conn) : Conn :=
  if !c.session.heartBeatFlag then
    { c with session.noHeartTime := c.session.noHeartTime + 1, log := c.log ++ [.tick] }
  else
    { c with
      session.noHeartTime := 0
      session.heartBeatFlag := false
      log := c.log ++ [.tick] }

/-- `_deal_heart_beat`; `timerOk` is whether the next timer can be created. -/
def dealHeartBeat (c : Conn) (timerOk : Bool) : Conn :=
  if NO_HEART_BEAT_THRESHOLD = c.session.noHeartTime then
    { c.sessionBrokenClean with log := c.log ++ [.expired] }
  else
    let c := c.countTick
    if timerOk then { c with timers := c.timers + 1 } else c

/-- `tbl.data and tbl.data.type`, and its type if that is true. -/
def requestedType (tbl : Option Json) : Option (Option Json) :=
  match Json.index tbl "data" with
  | none => none
  | some data =>
      if Json.truthy data then
        (Json.index data "type").map fun type => if Json.truthy type then type else none
      else some none

def setType (c : Conn) (type : Json) (evicted : List String) : Conn :=
  let c := { c with session.clientType := some type }
  if type.storable then
    let types : ClientTypes := c.shared.clientTypes.insert c.session.sessionid type
    { c with shared.clientTypes := types.evict evicted }
  else c

structure Reply where
  msgType : String
  typ : Int
  code : String

/-- The part of `_do_login_req` behind the registration. -/
def startSession (c : Conn) (timerOk : Bool) : Outcome (Option Reply) × Conn :=
  let c := c.spawnNotify
  if timerOk then (.returned (some ⟨"login_rsp", kLoginRsp, "1000"⟩), { c with timers := c.timers + 1 })
  else (.returned none, c)

def doLoginReq (c : Conn) (tbl : Option Json) (res : Resources) : Outcome (Option Reply) × Conn :=
  let c := { c with log := c.log ++ [.loginReq ((requestedType tbl).getD none)] }
  if c.session.isLogin then (.returned (some ⟨"login_rsp", kLoginRsp, "1000"⟩), c)
  else
    let c := { c with session.isLogin := true }
    match requestedType tbl with
    | none => (.raised, c)
    | some none => c.startSession res.timerOk
    | some (some type) => (c.setType type res.evicted).startSession res.timerOk

/-- `_do_heart_req`; its check can only raise. -/
def doHeartReq (c : Conn) (tbl : Option Json) : Outcome (Option Reply) × Conn :=
  let c := { c with session.heartBeatFlag := true, log := c.log ++ [.heartReq] }
  if Json.truthy tbl then (.returned (some ⟨"heart_rsp", kHeartRsp, "1000"⟩), c)
  else
    match Json.index tbl "data" with
    | none => (.raised, c)
    | some data =>
        (.returned (some ⟨"heart_rsp", kHeartRsp, if Json.truthy data then "1000" else "1006"⟩), c)

/-- `_do_recv_fileinfos_ntf` only prints. -/
def doRecvFileinfosNtf (tbl : Option Json) : Outcome Unit :=
  match Json.index tbl "data" with
  | none => .raised
  | some data =>
      match Json.index data "file_infos" with
      | none => .raised
      | some _ => .returned ()

/-- The end of `proc`: the reply with the request's timestamp, encoded. -/
def encodeReply (tbl : Option Json) (reply : Reply) : Outcome (Option (Int × List UInt8)) :=
  match Json.index tbl "timestamp" with
  | none => .raised
  | some timestamp =>
      let fields := [("msg_type", .str reply.msgType), ("data", .obj [("code", .num reply.code)])]
      let timestamp := timestamp.toList.map (Prod.mk "timestamp")
      .returned ((cjson.encode (.obj (fields ++ timestamp))).map (Prod.mk reply.typ))

def finish (tbl : Option Json) (result : Outcome (Option Reply) × Conn) :
    Outcome (Option (Int × List UInt8)) × Conn :=
  match result with
  | (.raised, c) => (.raised, c)
  | (.returned none, c) => (.raised, c)
  | (.returned (some reply), c) => (encodeReply cjson tbl reply, c)

def proc (c : Conn) (typ : Int) (body : List UInt8) (res : Resources) :
    Outcome (Option (Int × List UInt8)) × Conn :=
  let tbl := cjson.decode body
  if typ = kLoginReq then finish cjson tbl (c.doLoginReq tbl res)
  else if typ = kHeartReq then finish cjson tbl (c.doHeartReq tbl)
  else if typ = kSendFileInfosNtf then
    match doRecvFileinfosNtf tbl with
    | .raised => (.raised, c)
    | .returned () => (.returned none, c)
  else (.returned none, c)

/-! ## `main_proc.lua` -/

def sessionExit (c : Conn) : Conn :=
  { c with
    session.exit := true
    shared.msgQueue := Function.update c.shared.msgQueue c.session.sessionid [] }

def pushMsgToSendqueue (c : Conn) (typ : Int) (body : List UInt8) : Conn :=
  let msg := packetMessage c.session.syncBytes typ body
  { c with
    shared.msgQueue := Function.update c.shared.msgQueue c.session.sessionid
      (c.shared.msgQueue c.session.sessionid ++ [msg]) }

/-- The condition of the loop of `_main_proc`. -/
def loop (c : Conn) : Conn := if c.session.exit then { c with main := .ended } else c

/-- One turn of `_main_proc`, from the result of `recv_packet` on. -/
def mainProc (c : Conn) (received : RecvResult) (res : Resources) : Conn :=
  match received with
  | .raised => { c with main := .ended }
  | .err _ =>
      let c := c.sessionBrokenClean
      if c.session.notifyMsgThread.isSome then { c with main := .waiting }
      else { c.sessionExit with main := .ended }
  | .packet syncBytes typ body _ =>
      match { c with session.syncBytes := syncBytes }.proc cjson typ body res with
      | (.raised, c) => { c with main := .ended }
      | (.returned none, c) => c.loop
      | (.returned (some (typ, body)), c) => (c.pushMsgToSendqueue typ body).loop

def notifyMsgProc (c : Conn) (thread : Nat) : Conn :=
  if !c.session.isLogin then { c with notifyThreads := c.notifyThreads.erase thread }
  else
    match c.shared.notifyMsgQueue c.session.sessionid with
    | [] => c
    | message :: rest =>
        { c with
          shared.notifyMsgQueue := Function.update c.shared.notifyMsgQueue c.session.sessionid rest
          }.pushMsgToSendqueue kUpdateFileNtf message

/-- One turn of `_send_message`; `ok` is whether the socket takes the message. -/
def sendMessage (c : Conn) (ok : Bool) : Conn :=
  if c.session.exit then { c with sender := false }
  else
    match c.shared.msgQueue c.session.sessionid with
    | [] => c
    | _ :: rest =>
        let c := { c with
          shared.msgQueue := Function.update c.shared.msgQueue c.session.sessionid rest }
        if ok then c else { c.sessionExit with sender := false }

inductive Event
  | recv (received : RecvResult) (res : Resources)
  /-- The notify thread that `_main_proc` waits for has ended. -/
  | joined
  | timer (timerOk : Bool)
  | notify (thread : Nat)
  | send (ok : Bool)

def step (c : Conn) : Event → Option Conn
  | .recv received res =>
      if c.main = .reading then some (c.mainProc cjson received res) else none
  | .joined =>
      if c.main = .waiting ∧ ∀ thread ∈ c.session.notifyMsgThread, thread ∉ c.notifyThreads then
        some { { c with session.notifyMsgThread := none }.sessionExit with main := .ended }
      else none
  | .timer timerOk =>
      if c.timers = 0 then none
      else some ({ c with timers := c.timers - 1 }.dealHeartBeat timerOk)
  | .notify thread => if thread ∈ c.notifyThreads then some (c.notifyMsgProc thread) else none
  | .send ok => if c.sender then some (c.sendMessage ok) else none

inductive Turn (c : Conn) : Event → Conn → Prop
  | recv (received : RecvResult) (res : Resources) (hreading : c.main = .reading) :
      Turn c (.recv received res) (c.mainProc cjson received res)
  | joined (hwaiting : c.main = .waiting)
      (hended : ∀ thread ∈ c.session.notifyMsgThread, thread ∉ c.notifyThreads) :
      Turn c .joined { { c with session.notifyMsgThread := none }.sessionExit with main := .ended }
  | timer (timerOk : Bool) (htimers : c.timers ≠ 0) :
      Turn c (.timer timerOk) ({ c with timers := c.timers - 1 }.dealHeartBeat timerOk)
  | notify (thread : Nat) (hthread : thread ∈ c.notifyThreads) :
      Turn c (.notify thread) (c.notifyMsgProc thread)
  | send (ok : Bool) (hsender : c.sender = true) : Turn c (.send ok) (c.sendMessage ok)

theorem turn_of_step {c c' : Conn} {e : Event} (hstep : step cjson c e = some c') :
    Turn cjson c e c' := by
  cases e with
  | recv received res =>
      obtain ⟨hreading, heq⟩ := Option.ite_none_right_eq_some.mp hstep
      obtain rfl := Option.some.inj heq
      exact .recv received res hreading
  | joined =>
      obtain ⟨⟨hwaiting, hended⟩, heq⟩ := Option.ite_none_right_eq_some.mp hstep
      obtain rfl := Option.some.inj heq
      exact .joined hwaiting hended
  | timer timerOk =>
      obtain ⟨htimers, heq⟩ := Option.ite_none_left_eq_some.mp hstep
      obtain rfl := Option.some.inj heq
      exact .timer timerOk htimers
  | notify thread =>
      obtain ⟨hthread, heq⟩ := Option.ite_none_right_eq_some.mp hstep
      obtain rfl := Option.some.inj heq
      exact .notify thread hthread
  | send ok =>
      obtain ⟨hsender, heq⟩ := Option.ite_none_right_eq_some.mp hstep
      obtain rfl := Option.some.inj heq
      exact .send ok hsender

end Conn

end CloudEdgePush.Server
