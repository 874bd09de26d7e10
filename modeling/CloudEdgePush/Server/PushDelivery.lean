import CloudEdgePush.Server.Outbox
import CloudEdgePush.Server.Pushfile

/-!
# A push on its way to the socket

A push appends its message to the notify queues of the sessions that are registered under its
type.  From there a live notify thread and a live sender take it to the socket, behind everything
that was queued before it; a sender that has ended takes nothing.
-/

namespace CloudEdgePush.Server.Conn

open CloudEdgePush.Lib CloudEdgePush.Lib.Transition
open CloudEdgePush.Server.MessagePacket CloudEdgePush.Server.MessageDef

variable (cjson : Cjson)

def ntfFrame (c : Conn) (msg : List UInt8) : List UInt8 :=
  packetMessage c.session.syncBytes kUpdateFileNtf msg

def pushed {ν : Type} (c : Conn) (h : Host ν) (now : String) (f : Json) : Conn :=
  { c with shared := (ServicePushfile.push h now c.shared [f]).1 }

/-- When the record of this type is pushed, turns of a notify thread and of the sender take its
message to the socket. -/
def Reaches (c : Conn) (type : Json) : Prop :=
  ∀ (ν : Type) (h : Host ν) (now : String) (f : Json) (msg : List UInt8),
    Json.luaEq (some type) ((Json.index (some f) "type").getD none) = true →
    (h.cjson.encode f).isSome = true → ServicePushfile.message h now f = some msg →
    ∃ thread moved sent p,
      run (Pipeline.step cjson) (Pipeline.start (c.pushed h now f))
        (List.replicate moved (.turn (.notify thread)) ++
          List.replicate sent (.turn (.send true))) = some p ∧
      p.sent = c.sendQueue ++ (c.notifyQueue ++ [msg]).map c.ntfFrame

/-! ## The turns -/

/-- The turns of a notify thread, one for each message that is queued. -/
theorem run_notify {thread : Nat} {queue : List (List UInt8)} {p : Pipeline}
    (hlogin : p.conn.session.isLogin = true) (hthread : thread ∈ p.conn.notifyThreads)
    (hqueue : p.conn.notifyQueue = queue) :
    ∃ p', run (Pipeline.step cjson) p (List.replicate queue.length (.turn (.notify thread))) =
        some p' ∧ p'.sent = p.sent ∧ p'.conn.session = p.conn.session ∧
      p'.conn.sender = p.conn.sender ∧
      p'.conn.sendQueue = p.conn.sendQueue ++ queue.map p.conn.ntfFrame := by
  induction queue generalizing p with
  | nil => exact ⟨p, rfl, rfl, rfl, rfl, by simp⟩
  | cons message rest ih =>
      let popped : Conn := { p.conn with
        shared.notifyMsgQueue :=
          Function.update p.conn.shared.notifyMsgQueue p.conn.session.sessionid rest }
      let c := popped.pushMsgToSendqueue kUpdateFileNtf message
      have hturn : p.conn.notifyMsgProc thread = c := by
        have hhead : p.conn.shared.notifyMsgQueue p.conn.session.sessionid = message :: rest :=
          hqueue
        rw [notifyMsgProc, if_neg (by simp [hlogin]), hhead]
      have hstep : Pipeline.step cjson p (.turn (.notify thread)) = some { p with conn := c } := by
        simp [Pipeline.step, step, hthread, hturn, Pipeline.replyOf, Pipeline.handedOver]
      obtain ⟨p', hrun, hsent, hsession, hsender, hsend⟩ :=
        ih (p := { p with conn := c }) hlogin hthread (Function.update_self _ _ _)
      refine ⟨p', run_cons_eq_some.mpr ⟨_, hstep, hrun⟩, hsent, hsession, hsender, ?_⟩
      have hpush : c.sendQueue = p.conn.sendQueue ++ [p.conn.ntfFrame message] :=
        sendQueue_pushMsgToSendqueue popped kUpdateFileNtf message
      rw [hsend, hpush, List.append_assoc]
      rfl

theorem run_send {queue : List (List UInt8)} {p : Pipeline} (hsender : p.conn.sender = true)
    (hexit : p.conn.session.exit = false) (hqueue : p.conn.sendQueue = queue) :
    ∃ p', run (Pipeline.step cjson) p (List.replicate queue.length (.turn (.send true))) =
        some p' ∧ p'.sent = p.sent ++ queue := by
  induction queue generalizing p with
  | nil => exact ⟨p, rfl, (List.append_nil _).symm⟩
  | cons message rest ih =>
      let c : Conn := { p.conn with
        shared.msgQueue := Function.update p.conn.shared.msgQueue p.conn.session.sessionid rest }
      have hturn : p.conn.sendMessage true = c := by
        have hhead : p.conn.shared.msgQueue p.conn.session.sessionid = message :: rest := hqueue
        rw [sendMessage, if_neg (by simp [hexit]), hhead]
        rfl
      have hstep : Pipeline.step cjson p (.turn (.send true)) =
          some { p with conn := c, sent := p.sent ++ [message] } := by
        simp [Pipeline.step, step, hsender, hturn, hexit, hqueue, Pipeline.replyOf,
          Pipeline.handedOver]
      obtain ⟨p', hrun, hsent⟩ := ih (p := { p with conn := c, sent := p.sent ++ [message] })
        hsender hexit (Function.update_self _ _ _)
      refine ⟨p', run_cons_eq_some.mpr ⟨_, hstep, hrun⟩, ?_⟩
      rw [hsent, List.append_assoc, List.singleton_append]

/-! ## A live session -/

theorem pushed_queues {ν : Type} {c : Conn} {type f : Json} {msg : List UInt8} (h : Host ν)
    (now : String) (hentry : c.shared.clientTypes.lookup c.session.sessionid = some type)
    (htype : Json.luaEq (some type) ((Json.index (some f) "type").getD none) = true)
    (hencode : (h.cjson.encode f).isSome = true)
    (hmessage : ServicePushfile.message h now f = some msg) :
    (c.pushed h now f).notifyQueue = c.notifyQueue ++ [msg] ∧
      (c.pushed h now f).sendQueue = c.sendQueue := by
  have hindex : (Json.index (some f) "type").isSome = true := by
    cases hnone : Json.index (some f) "type" with
    | some found => rfl
    | none =>
        rw [hnone] at htype
        cases type <;> cases htype
  have hregistered : ServicePushfile.registered c.shared.clientTypes c.session.sessionid f = true := by
    simp [ServicePushfile.registered, hentry, htype]
  have hgoes : ∀ t ∈ ServicePushfile.turns c.shared.clientTypes [f],
      ServicePushfile.goes h c.shared.clientTypes t = true := by
    intro t ht
    obtain rfl := List.mem_singleton.mp (ServicePushfile.mem_turns ht).1
    simp [ServicePushfile.goes, hindex, hencode]
  have hpush : (ServicePushfile.push h now c.shared [f]).1 =
      ServicePushfile.after h now c.shared (ServicePushfile.turns c.shared.clientTypes [f]) := by
    rw [ServicePushfile.push_eq, upTo_eq_self hgoes]
  have hqueue : (c.pushed h now f).notifyQueue = c.notifyQueue ++
      (ServicePushfile.turns c.shared.clientTypes [f]).filterMap
        (ServicePushfile.arriving h now c.shared.clientTypes c.session.sessionid) := by
    rw [pushed, hpush]
    rfl
  refine ⟨?_, ?_⟩
  · rw [hqueue, ServicePushfile.filterMap_arriving_turns]
    simp [hregistered, hmessage]
  · rw [pushed, hpush]
    rfl

theorem Live.reaches {c : Conn} (hlive : c.Live) {type : Json}
    (hentry : c.shared.clientTypes.lookup c.session.sessionid = some type)
    (hthreads : c.notifyThreads ≠ []) : c.Reaches cjson type := by
  intro ν h now f msg htype hencode hmessage
  obtain ⟨thread, hthread⟩ := List.exists_mem_of_ne_nil _ hthreads
  obtain ⟨hnotify, hsend⟩ := pushed_queues h now hentry htype hencode hmessage
  obtain ⟨p, hmoved, hsent, hsession, hsender, hqueue⟩ :=
    run_notify cjson (p := Pipeline.start (c.pushed h now f)) hlive.isLogin hthread hnotify
  have hexit : p.conn.session.exit = false := by
    rw [hsession]
    exact hlive.exit
  obtain ⟨p', hrun, hall⟩ := run_send cjson (hsender.trans hlive.sender) hexit hqueue
  have hturns := (run_append _ _ _ _).trans ((congrArg (Option.bind · _) hmoved).trans hrun)
  refine ⟨thread, _, _, p', hturns, ?_⟩
  have hnothing : (Pipeline.start (c.pushed h now f)).sent = [] := rfl
  have hsame : (Pipeline.start (c.pushed h now f)).conn.sendQueue = c.sendQueue := hsend
  rw [hall, hsent, hnothing, hsame, List.nil_append]
  rfl

/-! ## A sender that has ended -/

/-- No run of a session without a sender hands anything over. -/
theorem sent_of_run {p p' : Pipeline} {events : List Pipeline.Event}
    (hsender : p.conn.sender = false) (hrun : run (Pipeline.step cjson) p events = some p') :
    p'.sent = p.sent := by
  have hstep : ∀ (m : Pipeline) (e : Pipeline.Event) (m' : Pipeline),
      m.conn.sender = false ∧ m.sent = p.sent → Pipeline.step cjson m e = some m' →
      m'.conn.sender = false ∧ m'.sent = p.sent := by
    rintro m e m' ⟨hended, hsent⟩ hstep
    cases e with
    | publish msg =>
        obtain rfl := Option.some.inj hstep
        exact ⟨hended, hsent⟩
    | turn e =>
        obtain ⟨c', hturn, rfl⟩ := Option.map_eq_some_iff.mp hstep
        constructor
        · by_contra hruns
          have hbefore := sender_of_step cjson hturn (by simpa using hruns)
          rw [hended] at hbefore
          cases hbefore
        · cases e with
          | send ok =>
              rw [step, hended] at hturn
              cases hturn
          | _ => exact (List.append_nil _).trans hsent
  exact (run_invariant hstep ⟨hsender, rfl⟩ hrun).2

theorem not_reaches {c : Conn} {type : Json} (hstorable : type.storable = true)
    (hsender : c.sender = false) : ¬ c.Reaches cjson type := by
  intro h
  let f : Json := .obj [("type", type)]
  have htype : Json.luaEq (some type) ((Json.index (some f) "type").getD none) = true :=
    Json.luaEq_self hstorable
  obtain ⟨msg, hmessage⟩ : ∃ msg,
      ServicePushfile.message ServicePushfile.sampleHost "1" f = some msg := ⟨_, rfl⟩
  obtain ⟨thread, moved, sent, p, hrun, hsent⟩ :=
    h String ServicePushfile.sampleHost "1" f msg htype rfl hmessage
  have hnothing : p.sent = [] := sent_of_run cjson hsender hrun
  rw [hnothing] at hsent
  simp at hsent

end CloudEdgePush.Server.Conn
