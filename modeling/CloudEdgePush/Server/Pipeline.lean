import Mathlib.Data.List.Infix
import CloudEdgePush.Lib.Fifo
import CloudEdgePush.Server.Turns

/-!
# The notification pipeline

A notification goes through two queues: a publisher appends it to `notify_msg_queue`, the
notify thread moves it to `msg_queue`, where the reader puts its replies, and the sender hands
what it finds there to the socket.  Each queue conserves what is pushed (`Fifo.Conserves`); the
list of items that ever entered `msg_queue` connects the two.
-/

namespace CloudEdgePush.Server

open CloudEdgePush.Lib.Transition CloudEdgePush.Lib.Fifo
open CloudEdgePush.Server.MessagePacket CloudEdgePush.Server.MessageDef

/-- What enters `msg_queue`: the notify thread's messages and the reader's replies, with the
sync bytes of the session at that time. -/
inductive Item
  | notification (syncBytes : Int) (message : List UInt8)
  | reply (syncBytes typ : Int) (body : List UInt8)

namespace Item

def frame : Item → List UInt8
  | notification syncBytes message => packetMessage syncBytes kUpdateFileNtf message
  | reply syncBytes typ body => packetMessage syncBytes typ body

def message? : Item → Option (List UInt8)
  | notification _ message => some message
  | reply _ _ _ => none

def reply? : Item → Option (Int × Int × List UInt8)
  | notification _ _ => none
  | reply syncBytes typ body => some (syncBytes, typ, body)

end Item

def IsFrame (data : List UInt8) : Prop := ∃ syncBytes typ body, data = packetMessage syncBytes typ body

theorem Item.isFrame (item : Item) : IsFrame item.frame := by
  cases item with
  | notification syncBytes message => exact ⟨_, _, _, rfl⟩
  | reply syncBytes typ body => exact ⟨_, _, _, rfl⟩

/-- A session with the messages published for it, the replies that `proc` returned (with the
sync bytes of the request) and the messages handed to `sock:send`, each in order. -/
structure Pipeline where
  conn : Conn
  published : List (List UInt8)
  replies : List (Int × Int × List UInt8)
  sent : List (List UInt8)

namespace Pipeline

variable (cjson : Cjson)

def start (conn : Conn) : Pipeline := ⟨conn, [], [], []⟩

inductive Event
  /-- `publish_message` of the HTTP side. -/
  | publish (msg : List UInt8)
  | turn (e : Conn.Event)

def replyOf (c : Conn) : Conn.Event → Option (Int × Int × List UInt8)
  | .recv (.packet syncBytes typ body _) res =>
      match ({ c with session.syncBytes := syncBytes }.proc cjson typ body res).1 with
      | .returned (some (typ, body)) => some (syncBytes, typ, body)
      | _ => none
  | _ => none

def handedOver (c : Conn) : Conn.Event → Option (List UInt8)
  | .send _ => if c.session.exit then none else c.sendQueue.head?
  | _ => none

def publish (p : Pipeline) (msg : List UInt8) : Pipeline :=
  { p with
    conn.shared.notifyMsgQueue := Function.update p.conn.shared.notifyMsgQueue
      p.conn.session.sessionid (p.conn.notifyQueue ++ [msg])
    published := p.published ++ [msg] }

def step (p : Pipeline) : Event → Option Pipeline
  | .publish msg => some (p.publish msg)
  | .turn e =>
      (Conn.step cjson p.conn e).map fun conn =>
        { p with
          conn := conn
          replies := p.replies ++ (replyOf cjson p.conn e).toList
          sent := p.sent ++ (handedOver p.conn e).toList }

end Pipeline

/-- The session is logged in, its sender runs, and nothing has told it to stop; of a session that
the server can get into the last part need not be said (`StopInv.live`). -/
structure Conn.Live (c : Conn) : Prop where
  isLogin : c.session.isLogin = true
  sender : c.sender = true
  exit : c.session.exit = false

namespace Conn

/-! ## One turn -/

/-- From `c` to `c'` these items entered `msg_queue`, from the notify queue as far as they are
notifications; these messages left it. -/
structure Moves (c c' : Conn) (entered : List Item) (left : Option (List UInt8)) : Prop where
  sessionid : c'.session.sessionid = c.session.sessionid
  notifyQueue : c.notifyQueue = entered.filterMap Item.message? ++ c'.notifyQueue
  sendQueue : c.sendQueue ++ entered.map Item.frame = left.toList ++ c'.sendQueue

variable (cjson : Cjson)

theorem Moves.stay {c c' : Conn} (hid : c'.session.sessionid = c.session.sessionid)
    (hnotify : c'.shared.notifyMsgQueue = c.shared.notifyMsgQueue)
    (hmsg : c'.shared.msgQueue = c.shared.msgQueue) : Moves c c' [] none := by
  refine ⟨hid, ?_, ?_⟩
  · simp [Conn.notifyQueue, hid, hnotify]
  · simp [Conn.sendQueue, hid, hmsg]

theorem moves_notifyMsgProc {c : Conn} (hlogin : c.session.isLogin = true) (thread : Nat) :
    ∃ entered, Moves c (c.notifyMsgProc thread) entered none ∧
      entered.filterMap Item.reply? = [] := by
  unfold notifyMsgProc
  rw [if_neg (by simp [hlogin])]
  split
  · exact ⟨[], .stay rfl rfl rfl, rfl⟩
  · rename_i message rest hqueue
    let popped : Conn := { c with
      shared.notifyMsgQueue :=
        Function.update c.shared.notifyMsgQueue c.session.sessionid rest }
    have hafter : (popped.pushMsgToSendqueue kUpdateFileNtf message).notifyQueue = rest :=
      Function.update_self _ _ _
    have hsend := sendQueue_pushMsgToSendqueue popped kUpdateFileNtf message
    refine ⟨[.notification c.session.syncBytes message], ⟨rfl, ?_, hsend.symm⟩, rfl⟩
    exact hqueue.trans (congrArg (message :: ·) hafter.symm)

theorem moves_packet (c : Conn) (syncBytes typ : Int) (body : List UInt8)
    (binarydata : Option (List UInt8)) (res : Resources) :
    ∃ entered, Moves c (c.mainProc cjson (.packet syncBytes typ body binarydata) res) entered
        none ∧
      entered.filterMap Item.reply? =
        (Pipeline.replyOf cjson c (.recv (.packet syncBytes typ body binarydata) res)).toList := by
  let d : Conn := { c with session.syncBytes := syncBytes }
  have hkept := Kept.proc cjson d typ body res
  have hid : (d.proc cjson typ body res).2.session.sessionid = c.session.sessionid :=
    (logged_proc cjson d typ body res).sessionid
  have hstay : Moves c (d.proc cjson typ body res).2 [] none :=
    .stay hid hkept.notifyMsgQueue hkept.msgQueue
  have hsync : (d.proc cjson typ body res).2.session.syncBytes = syncBytes := hkept.syncBytes
  have hreply : Pipeline.replyOf cjson c (.recv (.packet syncBytes typ body binarydata) res) =
      match (d.proc cjson typ body res).1 with
      | .returned (some (typ, body)) => some (syncBytes, typ, body)
      | _ => none := rfl
  have hturn := packetTurn_mainProc cjson c syncBytes typ body binarydata res
  rw [hreply]
  generalize c.mainProc cjson _ res = c' at hturn ⊢
  cases hturn with
  | raised h =>
      rw [h]
      exact ⟨[], ⟨hstay.sessionid, hstay.notifyQueue, hstay.sendQueue⟩, rfl⟩
  | silent h =>
      rw [h, loop_eq]
      exact ⟨[], ⟨hstay.sessionid, hstay.notifyQueue, hstay.sendQueue⟩, rfl⟩
  | reply typ' body' h =>
      rw [h, loop_eq]
      refine ⟨[.reply syncBytes typ' body'], ⟨hid, hstay.notifyQueue, ?_⟩, rfl⟩
      have hsend := sendQueue_pushMsgToSendqueue (d.proc cjson typ body res).2 typ' body'
      have hqueue : (d.proc cjson typ body res).2.sendQueue = c.sendQueue := by
        simpa using hstay.sendQueue.symm
      rw [hqueue, hsync] at hsend
      exact hsend.symm

theorem moves_dealHeartBeat (c : Conn) (timerOk : Bool)
    (hlive : (c.dealHeartBeat timerOk).session.isLogin = true) :
    Moves c (c.dealHeartBeat timerOk) [] none := by
  unfold dealHeartBeat at hlive ⊢
  by_cases hsilent : NO_HEART_BEAT_THRESHOLD = c.session.noHeartTime
  · rw [if_pos hsilent] at hlive
    cases hlive
  · rw [if_neg hsilent]
    unfold countTick
    dsimp only
    split
    all_goals
      split
      all_goals exact .stay rfl rfl rfl

theorem moves_sendMessage {c : Conn} (hc : c.Live) {ok : Bool} (hlive : (c.sendMessage ok).Live) :
    Moves c (c.sendMessage ok) [] (Pipeline.handedOver c (.send ok)) := by
  unfold Pipeline.handedOver
  rw [if_neg (by simp [hc.exit])]
  have hexit := hlive.exit
  unfold sendMessage at hexit ⊢
  rw [if_neg (by simp [hc.exit])] at hexit ⊢
  split
  · rename_i hqueue
    have hempty : c.sendQueue = [] := hqueue
    rw [hempty]
    exact .stay rfl rfl rfl
  · rename_i message rest hqueue
    have hhead : c.sendQueue = message :: rest := hqueue
    rw [hqueue] at hexit
    cases ok with
    | false => cases hexit
    | true =>
        refine ⟨rfl, rfl, ?_⟩
        have hafter : Function.update c.shared.msgQueue c.session.sessionid rest
            c.session.sessionid = rest := Function.update_self _ _ _
        rw [hhead, List.map_nil, List.append_nil]
        exact congrArg (message :: ·) hafter.symm

theorem moves_step {c c' : Conn} {e : Event} (hc : c.Live) (hlive : c'.Live)
    (hstep : step cjson c e = some c') :
    ∃ entered, Moves c c' entered (Pipeline.handedOver c e) ∧
      entered.filterMap Item.reply? = (Pipeline.replyOf cjson c e).toList := by
  cases turn_of_step cjson hstep with
  | recv received res _ =>
      cases received with
      | raised => exact ⟨[], .stay rfl rfl rfl, rfl⟩
      | err error =>
          have hlogin := hlive.isLogin
          unfold mainProc at hlogin
          dsimp only at hlogin
          split at hlogin
          · cases hlogin
          · cases hlogin
      | packet syncBytes typ body binarydata =>
          exact moves_packet cjson c syncBytes typ body binarydata res
  | joined _ _ =>
      cases hlive.exit
  | timer timerOk _ =>
      have hmoves := moves_dealHeartBeat { c with timers := c.timers - 1 } timerOk hlive.isLogin
      exact ⟨[], ⟨hmoves.sessionid, hmoves.notifyQueue, hmoves.sendQueue⟩, rfl⟩
  | notify thread _ =>
      exact moves_notifyMsgProc hc.isLogin thread
  | send ok _ =>
      exact ⟨[], moves_sendMessage hc hlive, rfl⟩

/-- Whatever a turn does, only frames enter `msg_queue`. -/
theorem mem_sendQueue_step {c c' : Conn} {e : Event} (hstep : step cjson c e = some c')
    {data : List UInt8} (hdata : data ∈ c'.sendQueue) : data ∈ c.sendQueue ∨ IsFrame data := by
  have hmoves {c₁ : Conn} {entered : List Item} (h : Moves c c₁ entered none)
      (hmem : data ∈ c₁.sendQueue) : data ∈ c.sendQueue ∨ IsFrame data := by
    have hall : data ∈ c.sendQueue ++ entered.map Item.frame := h.sendQueue ▸ hmem
    apply (List.mem_append.mp hall).imp_right
    intro hnew
    obtain ⟨item, -, rfl⟩ := List.mem_map.mp hnew
    exact item.isFrame
  have hnothing {d : Conn} (hmem : data ∈ d.sessionExit.sendQueue) : False := by
    have hempty : d.sessionExit.sendQueue = [] := Function.update_self _ _ _
    rw [hempty] at hmem
    exact List.not_mem_nil hmem
  cases turn_of_step cjson hstep with
  | recv received res _ =>
      cases received with
      | raised => exact .inl hdata
      | err error =>
          unfold mainProc at hdata
          dsimp only at hdata
          split at hdata
          · exact .inl hdata
          · exact (hnothing hdata).elim
      | packet syncBytes typ body binarydata =>
          obtain ⟨entered, h, -⟩ := moves_packet cjson c syncBytes typ body binarydata res
          exact hmoves h hdata
  | joined _ _ => exact (hnothing hdata).elim
  | timer timerOk _ =>
      unfold dealHeartBeat countTick at hdata
      dsimp only at hdata
      split at hdata
      · exact .inl hdata
      · split at hdata
        all_goals
          split at hdata
          all_goals exact .inl hdata
  | notify thread _ =>
      by_cases hlogin : c.session.isLogin = true
      · obtain ⟨entered, h, -⟩ := moves_notifyMsgProc hlogin thread
        exact hmoves h hdata
      · rw [notifyMsgProc, if_pos (by simpa using hlogin)] at hdata
        exact .inl hdata
  | send ok _ =>
      unfold sendMessage at hdata
      split at hdata
      · exact .inl hdata
      · split at hdata
        · exact .inl hdata
        · rename_i message rest hqueue
          have hhead : c.sendQueue = message :: rest := hqueue
          cases ok with
          | true =>
              have hrest : Function.update c.shared.msgQueue c.session.sessionid rest
                  c.session.sessionid = rest := Function.update_self _ _ _
              have hmem : data ∈ rest := hrest ▸ hdata
              exact .inl (hhead ▸ List.mem_cons_of_mem message hmem)
          | false => exact (hnothing hdata).elim

end Conn

namespace Conn

/-! ## Sessions that are told to stop -/

/-- `session.exit` is set when the reader has cleaned up or the sender has ended. -/
structure StopInv (c : Conn) : Prop where
  waiting : c.main = .waiting → c.session.isLogin = false
  exit : c.session.exit = true → c.sender = false ∨ c.session.isLogin = false ∧ c.main ≠ .reading

theorem StopInv.live {c : Conn} (h : StopInv c) (hlogin : c.session.isLogin = true)
    (hsender : c.sender = true) : c.Live := by
  refine ⟨hlogin, hsender, ?_⟩
  by_contra hexit
  rcases h.exit (by simpa using hexit) with hended | ⟨hout, -⟩
  · rw [hended] at hsender
    cases hsender
  · rw [hout] at hlogin
    cases hlogin

variable (cjson : Cjson)

theorem stopInv_packet {c : Conn} (hreading : c.main = .reading) (h : StopInv c)
    (syncBytes typ : Int) (body : List UInt8) (binarydata : Option (List UInt8)) (res : Resources) :
    StopInv (c.mainProc cjson (.packet syncBytes typ body binarydata) res) := by
  let d : Conn := { c with session.syncBytes := syncBytes }
  have hkept := Kept.proc cjson d typ body res
  have hmain : (d.proc cjson typ body res).2.main = .reading :=
    (logged_proc cjson d typ body res).main.trans hreading
  have hsender (hexit : (d.proc cjson typ body res).2.session.exit = true) :
      (d.proc cjson typ body res).2.sender = false := by
    rw [hkept.exit] at hexit
    rw [hkept.sender]
    exact (h.exit hexit).resolve_right fun hout => hout.2 hreading
  have hgoes (exit : Bool) :
      (if exit then .ended else (d.proc cjson typ body res).2.main) ≠ MainPhase.waiting := by
    rw [hmain]
    cases exit with
    | true => decide
    | false => decide
  have hturn := packetTurn_mainProc cjson c syncBytes typ body binarydata res
  generalize c.mainProc cjson _ res = c' at hturn ⊢
  cases hturn with
  | raised _ => exact ⟨nofun, fun hexit => .inl (hsender hexit)⟩
  | silent _ =>
      rw [loop_eq]
      exact ⟨fun hwaiting => absurd hwaiting (hgoes _), fun hexit => .inl (hsender hexit)⟩
  | reply typ' body' _ =>
      rw [loop_eq]
      exact ⟨fun hwaiting => absurd hwaiting (hgoes _), fun hexit => .inl (hsender hexit)⟩

theorem step_stopInv (c : Conn) (e : Event) (c' : Conn) (h : StopInv c)
    (hstep : step cjson c e = some c') : StopInv c' := by
  cases turn_of_step cjson hstep with
  | recv received res hreading =>
      cases received with
      | raised =>
          refine ⟨nofun, fun hexit => .inl ?_⟩
          exact (h.exit hexit).resolve_right fun hout => hout.2 hreading
      | err error =>
          unfold mainProc
          dsimp only
          split
          · exact ⟨fun _ => rfl, fun _ => .inr ⟨rfl, nofun⟩⟩
          · exact ⟨nofun, fun _ => .inr ⟨rfl, nofun⟩⟩
      | packet syncBytes typ body binarydata =>
          exact stopInv_packet cjson hreading h syncBytes typ body binarydata res
  | joined hwaiting _ =>
      exact ⟨nofun, fun _ => .inr ⟨h.waiting hwaiting, nofun⟩⟩
  | timer timerOk _ =>
      unfold dealHeartBeat
      split
      · exact ⟨fun _ => rfl, fun hexit => (h.exit hexit).imp_right fun hout => ⟨rfl, hout.2⟩⟩
      · unfold countTick
        dsimp only
        split
        all_goals
          split
          all_goals exact ⟨h.waiting, h.exit⟩
  | notify thread _ =>
      unfold notifyMsgProc
      split
      · exact ⟨h.waiting, h.exit⟩
      · split
        · exact h
        · exact ⟨h.waiting, h.exit⟩
  | send ok _ =>
      unfold sendMessage
      split
      · exact ⟨h.waiting, fun _ => .inl rfl⟩
      · split
        · exact h
        · cases ok with
          | true => exact ⟨h.waiting, h.exit⟩
          | false => exact ⟨h.waiting, fun _ => .inl rfl⟩

end Conn

namespace Pipeline

/-! ## Runs -/

/-- `entered` is what went through `msg_queue` since the session was in state `c₀`. -/
structure Conserved (c₀ : Conn) (p : Pipeline) (entered : List Item) : Prop where
  notifications : Conserves (c₀.notifyQueue ++ p.published) (entered.filterMap Item.message?)
    p.conn.notifyQueue
  items : Conserves (c₀.sendQueue ++ entered.map Item.frame) p.sent p.conn.sendQueue
  replies : p.replies = entered.filterMap Item.reply?

variable (cjson : Cjson)

theorem Conserved.publish {c₀ : Conn} {p : Pipeline} {entered : List Item}
    (h : Conserved c₀ p entered) (msg : List UInt8) : Conserved c₀ (p.publish msg) entered := by
  obtain ⟨hnotifications, hitems, hreplies⟩ := h
  refine ⟨?_, hitems, hreplies⟩
  have hqueue : (p.publish msg).conn.notifyQueue = p.conn.notifyQueue ++ [msg] :=
    Function.update_self _ _ _
  rw [hqueue]
  have hpushed := hnotifications.push [msg]
  rwa [List.append_assoc] at hpushed

theorem Conserved.turn {c₀ : Conn} {p p' : Pipeline} {e : Conn.Event} {entered : List Item}
    (h : Conserved c₀ p entered) (hlive : p.conn.Live) (hlive' : p'.conn.Live)
    (hstep : step cjson p (.turn e) = some p') : ∃ entered', Conserved c₀ p' entered' := by
  obtain ⟨c', hturn, rfl⟩ := Option.map_eq_some_iff.mp hstep
  obtain ⟨new, hmoves, hnew⟩ := Conn.moves_step cjson hlive hlive' hturn
  obtain ⟨hnotifications, hitems, hreplies⟩ := h
  refine ⟨entered ++ new, ?_, ?_, ?_⟩
  · unfold Conserves at hnotifications ⊢
    rw [List.filterMap_append, List.append_assoc, ← hmoves.notifyQueue]
    exact hnotifications
  · unfold Conserves at hitems ⊢
    rw [List.map_append, ← List.append_assoc, hitems, List.append_assoc, hmoves.sendQueue,
      List.append_assoc]
  · rw [List.filterMap_append, hnew, ← hreplies]

theorem Conserved.isFrame {c₀ : Conn} {p : Pipeline} {entered : List Item}
    (h : Conserved c₀ p entered) (hstart : ∀ data ∈ c₀.sendQueue, IsFrame data) :
    ∀ data ∈ p.sent, IsFrame data := by
  intro data hsent
  have hmem := h.items.popped_prefix.subset hsent
  rcases List.mem_append.mp hmem with hold | hnew
  · exact hstart data hold
  · obtain ⟨item, -, rfl⟩ := List.mem_map.mp hnew
    exact item.isFrame

theorem isFrame_of_run {p₀ p : Pipeline} {events : List Event}
    (h : ∀ data ∈ p₀.conn.sendQueue, IsFrame data)
    (hrun : run (step cjson) p₀ events = some p) : ∀ data ∈ p.conn.sendQueue, IsFrame data := by
  have hstep : ∀ (p : Pipeline) (e : Event) (p' : Pipeline),
      (∀ data ∈ p.conn.sendQueue, IsFrame data) → step cjson p e = some p' →
        ∀ data ∈ p'.conn.sendQueue, IsFrame data := by
    intro p e p' h hstep data hdata
    cases e with
    | publish msg =>
        obtain rfl := Option.some.inj hstep
        exact h data hdata
    | turn e =>
        obtain ⟨c', hturn, rfl⟩ := Option.map_eq_some_iff.mp hstep
        exact (Conn.mem_sendQueue_step cjson hturn hdata).elim (h data) id
  exact run_invariant hstep h hrun

theorem run_stopInv {p₀ p : Pipeline} {events : List Event} (h : Conn.StopInv p₀.conn)
    (hrun : run (step cjson) p₀ events = some p) : Conn.StopInv p.conn := by
  have hstep : ∀ (p : Pipeline) (e : Event) (p' : Pipeline), Conn.StopInv p.conn →
      step cjson p e = some p' → Conn.StopInv p'.conn := by
    intro p e p' h hstep
    cases e with
    | publish msg =>
        obtain rfl := Option.some.inj hstep
        exact ⟨h.waiting, h.exit⟩
    | turn e =>
        obtain ⟨c', hturn, rfl⟩ := Option.map_eq_some_iff.mp hstep
        exact Conn.step_stopInv cjson _ e c' h hturn
  exact run_invariant hstep h hrun

/-- A session in any state that it can reach; publishers, its notify threads, its reader and its
sender take turns in any order, while it stays logged in and its sender runs.  There is one
sequence of items, which are the notifications in publish order, as far as they left the notify
queue, and the replies in the order of their requests; the socket has been handed its frames, as
far as they left `msg_queue`.  The socket gets nothing but frames, if there was nothing else in the
queue at the connect. -/
theorem run_conserved {sessionid : String} {shared : Shared} {earlier events : List Event}
    {p₀ p : Pipeline}
    (hreach : run (step cjson) (start (Conn.connect sessionid shared)) earlier = some p₀)
    (hrun : run (step cjson) (start p₀.conn) events = some p)
    (hlive : ∀ before m, before <+: events → run (step cjson) (start p₀.conn) before = some m →
      m.conn.session.isLogin = true ∧ m.conn.sender = true) :
    ∃ entered : List Item,
      p₀.conn.notifyQueue ++ p.published =
          entered.filterMap Item.message? ++ p.conn.notifyQueue ∧
        p₀.conn.sendQueue ++ entered.map Item.frame = p.sent ++ p.conn.sendQueue ∧
        p.replies = entered.filterMap Item.reply? ∧
        ((∀ data ∈ shared.msgQueue sessionid, IsFrame data) ∨
            (∀ data ∈ p₀.conn.sendQueue, IsFrame data) → ∀ data ∈ p.sent, IsFrame data) := by
  have hconnect : Conn.StopInv (Conn.connect sessionid shared) := by
    refine ⟨fun hwaiting => ?_, fun hexit => ?_⟩
    · cases hwaiting
    · cases hexit
  have hstop₀ : Conn.StopInv p₀.conn := by
    have hstart : Conn.StopInv (start (Conn.connect sessionid shared)).conn := hconnect
    exact run_stopInv cjson hstart hreach
  have hstop : Conn.StopInv (start p₀.conn).conn := hstop₀
  have hlives : ∀ before m, before <+: events → run (step cjson) (start p₀.conn) before = some m →
      m.conn.Live := by
    intro before m hprefix hm
    obtain ⟨hlogin, hsender⟩ := hlive before m hprefix hm
    exact (run_stopInv cjson hstop hm).live hlogin hsender
  let inv (p : Pipeline) : Prop := ∃ entered, Conserved p₀.conn p entered
  have hkeep : ∀ p e p', inv p → p.conn.Live → p'.conn.Live → True → step cjson p e = some p' →
      inv p' := by
    rintro p e p' ⟨entered, hconserved⟩ hp hp' - hstep
    cases e with
    | publish msg =>
        obtain rfl := Option.some.inj hstep
        exact ⟨entered, hconserved.publish msg⟩
    | turn e => exact hconserved.turn cjson hp hp' hstep
  have hinit : inv (start p₀.conn) := by
    refine ⟨[], ?_, ?_, rfl⟩
    · rw [start, List.append_nil]
      exact Conserves.start _
    · rw [List.map_nil, List.append_nil]
      exact Conserves.start _
  obtain ⟨entered, hconserved⟩ :=
    run_of_prefixes hkeep hinit hlives (allSteps_true _ _) hrun
  refine ⟨entered, hconserved.notifications, hconserved.items, hconserved.replies, ?_⟩
  rintro (hshared | hframes)
  · have hqueue : ∀ data ∈ (start (Conn.connect sessionid shared)).conn.sendQueue, IsFrame data :=
      hshared
    exact hconserved.isFrame (isFrame_of_run cjson hqueue hreach)
  · exact hconserved.isFrame hframes

/-! ## A logged in session -/

def sampleEvents : List Event :=
  [.publish [0x7b, 0x7d],
    .turn (.recv (.packet 0x01010101 kHeartReq (Conn.loginBody "\"a\"") none) ⟨true, []⟩),
    .turn (.notify 0), .turn (.send true)]

theorem run_conserved_sample :
    ∃ p₀ p, run (step Conn.sampleCjson) (start (Conn.connect "client_127_0_0_1_9000"
          Conn.sampleShared)) [.turn (Conn.loginEvent "\"a\"")] = some p₀ ∧
      run (step Conn.sampleCjson) (start p₀.conn) sampleEvents = some p ∧
      ∃ entered : List Item,
        p₀.conn.notifyQueue ++ p.published =
            entered.filterMap Item.message? ++ p.conn.notifyQueue ∧
          p₀.conn.sendQueue ++ entered.map Item.frame = p.sent ++ p.conn.sendQueue ∧
          p.replies = entered.filterMap Item.reply? ∧ ∀ data ∈ p.sent, IsFrame data := by
  have hlive : ∃ p₀ ∈ run (step Conn.sampleCjson) (start (Conn.connect "client_127_0_0_1_9000"
        Conn.sampleShared)) [.turn (Conn.loginEvent "\"a\"")],
      (run (step Conn.sampleCjson) (start p₀.conn) sampleEvents).isSome ∧
        ∀ before ∈ sampleEvents.inits, ∀ m ∈ run (step Conn.sampleCjson) (start p₀.conn) before,
          m.conn.session.isLogin = true ∧ m.conn.sender = true := by
    decide +kernel
  obtain ⟨p₀, hreach, hsome, hlive⟩ := hlive
  obtain ⟨p, hrun⟩ := Option.isSome_iff_exists.mp hsome
  obtain ⟨entered, hnotifications, hitems, hreplies, hframes⟩ :=
    run_conserved Conn.sampleCjson hreach hrun
      fun before m hprefix hm => hlive before ((List.mem_inits _ _).mpr hprefix) m hm
  exact ⟨p₀, p, hreach, hrun, entered, hnotifications, hitems, hreplies, hframes (.inl nofun)⟩

end Pipeline

end CloudEdgePush.Server
