import CloudEdgePush.Server.Pipeline

/-!
# What a session sends, however it ends

`Pipeline` follows the queues of a session that stays logged in.  Here the session may expire, be
renewed, fail to send or end: messages are lost then, but none is sent twice or out of order
(`Outbox`).
-/

namespace CloudEdgePush.Server

open CloudEdgePush.Lib.Transition CloudEdgePush.Lib.Fifo
open CloudEdgePush.Server.MessagePacket CloudEdgePush.Server.MessageDef

namespace Item

def syncBytes : Item → Int
  | notification syncBytes _ => syncBytes
  | reply syncBytes _ _ => syncBytes

def typ : Item → Int
  | notification _ _ => kUpdateFileNtf
  | reply _ typ _ => typ

def body : Item → List UInt8
  | notification _ message => message
  | reply _ _ body => body

theorem frame_eq (item : Item) : item.frame = packetMessage item.syncBytes item.typ item.body := by
  cases item with
  | notification syncBytes message => rfl
  | reply syncBytes typ body => rfl

end Item

namespace Conn

/-! ## Replies -/

/-- The type of the reply to a request, if it is answered at all. -/
def answerOf (typ : Int) : Option Int :=
  if typ = kLoginReq then some kLoginRsp
  else if typ = kHeartReq then some kHeartRsp
  else none

variable (cjson : Cjson)

theorem encodeReply_typ {tbl : Option Json} {reply : Reply} {typ : Int} {body : List UInt8}
    (h : encodeReply cjson tbl reply = .returned (some (typ, body))) : typ = reply.typ := by
  unfold encodeReply at h
  split at h
  · cases h
  · obtain ⟨text, -, heq⟩ := Option.map_eq_some_iff.mp (Outcome.returned.inj h)
    exact (Prod.mk.inj heq).1.symm

theorem finish_typ {tbl : Option Json} {result : Outcome (Option Reply) × Conn} {typ : Int}
    {body : List UInt8} (h : (finish cjson tbl result).1 = .returned (some (typ, body))) :
    ∃ reply, result.1 = .returned (some reply) ∧ typ = reply.typ := by
  obtain ⟨outcome, c⟩ := result
  cases outcome with
  | raised => cases h
  | returned reply =>
      cases reply with
      | none => cases h
      | some reply => exact ⟨reply, rfl, encodeReply_typ cjson h⟩

theorem doLoginReq_typ {c : Conn} {tbl : Option Json} {res : Resources} {reply : Reply}
    (h : (c.doLoginReq tbl res).1 = .returned (some reply)) : reply.typ = kLoginRsp := by
  have hstart (d : Conn) (h : (d.startSession res.timerOk).1 = .returned (some reply)) :
      reply.typ = kLoginRsp := by
    unfold startSession at h
    split at h
    · obtain rfl := Option.some.inj (Outcome.returned.inj h)
      rfl
    · cases Outcome.returned.inj h
  unfold doLoginReq at h
  dsimp only at h
  split at h
  · obtain rfl := Option.some.inj (Outcome.returned.inj h)
    rfl
  · split at h
    · cases h
    · exact hstart _ h
    · exact hstart _ h

theorem doHeartReq_typ {c : Conn} {tbl : Option Json} {reply : Reply}
    (h : (c.doHeartReq tbl).1 = .returned (some reply)) : reply.typ = kHeartRsp := by
  unfold doHeartReq at h
  dsimp only at h
  split at h
  · obtain rfl := Option.some.inj (Outcome.returned.inj h)
    rfl
  · split at h
    · cases h
    · obtain rfl := Option.some.inj (Outcome.returned.inj h)
      rfl

theorem proc_typ {c : Conn} {typ typ' : Int} {body body' : List UInt8} {res : Resources}
    (h : (c.proc cjson typ body res).1 = .returned (some (typ', body'))) :
    answerOf typ = some typ' := by
  unfold proc at h
  unfold answerOf
  dsimp only at h
  by_cases hlogin : typ = kLoginReq
  · rw [if_pos hlogin] at h
    obtain ⟨reply, hreply, rfl⟩ := finish_typ cjson h
    rw [if_pos hlogin, doLoginReq_typ hreply]
  · rw [if_neg hlogin] at h ⊢
    by_cases hheart : typ = kHeartReq
    · rw [if_pos hheart] at h
      obtain ⟨reply, hreply, rfl⟩ := finish_typ cjson h
      rw [if_pos hheart, doHeartReq_typ hreply]
    · rw [if_neg hheart] at h
      split at h
      · split at h
        · cases h
        · cases Outcome.returned.inj h
      · cases Outcome.returned.inj h

/-! ## The phase of the reader -/

theorem notifyQueue_sessionBrokenClean (c : Conn) : c.sessionBrokenClean.notifyQueue = [] :=
  Function.update_self _ _ _

theorem main_mainProc {c : Conn} {received : RecvResult} {res : Resources}
    (h : (c.mainProc cjson received res).main = .reading) :
    c.main = .reading ∧ ∃ syncBytes typ body binarydata,
      received = .packet syncBytes typ body binarydata := by
  cases received with
  | raised => cases h
  | err error =>
      unfold mainProc at h
      dsimp only at h
      split at h
      · cases h
      · cases h
  | packet syncBytes typ body binarydata =>
      refine ⟨?_, _, _, _, _, rfl⟩
      obtain ⟨entries, hlogged⟩ := logged_mainProc cjson h
      exact hlogged.main.symm.trans h

theorem main_of_step {c c' : Conn} {e : Event} (hstep : step cjson c e = some c')
    (h : c'.main = .reading) : c.main = .reading := by
  obtain ⟨entries, hlogged⟩ := logged_step cjson hstep h
  exact hlogged.main.symm.trans h

/-- The reader has not left its loop, and the heartbeat monitor has not ended the session. -/
structure Unbroken (c : Conn) : Prop where
  reading : c.main = .reading
  alive : Entry.expired ∉ c.log

theorem sender_of_step {c c' : Conn} {e : Event} (hstep : step cjson c e = some c')
    (h : c'.sender = true) : c.sender = true := by
  cases turn_of_step cjson hstep with
  | recv received res _ =>
      cases received with
      | raised => exact h
      | err error =>
          unfold mainProc at h
          dsimp only at h
          split at h
          · exact h
          · exact h
      | packet syncBytes typ body binarydata =>
          have hkept := Kept.proc cjson { c with session.syncBytes := syncBytes } typ body res
          have hturn := packetTurn_mainProc cjson c syncBytes typ body binarydata res
          generalize c.mainProc cjson _ res = c' at hturn h
          cases hturn with
          | raised _ => exact hkept.sender.symm.trans h
          | silent _ =>
              rw [loop_eq] at h
              exact hkept.sender.symm.trans h
          | reply typ' body' _ =>
              rw [loop_eq] at h
              exact hkept.sender.symm.trans h
  | joined _ _ => exact h
  | timer timerOk _ =>
      unfold dealHeartBeat countTick at h
      dsimp only at h
      split at h
      · exact h
      · split at h
        all_goals
          split at h
          all_goals exact h
  | notify thread _ =>
      unfold notifyMsgProc at h
      split at h
      · exact h
      · split at h
        all_goals exact h
  | send ok hsender => exact hsender

instance : ∀ e : Entry, Decidable (e = .expired)
  | .loginReq _ => isFalse nofun
  | .heartReq => isFalse nofun
  | .tick => isFalse nofun
  | .expired => isTrue rfl

instance (c : Conn) : Decidable c.Unbroken :=
  decidable_of_iff (c.main = .reading ∧ ∀ e ∈ c.log, e ≠ .expired)
    ⟨fun h => ⟨h.1, fun hexpired => h.2 _ hexpired rfl⟩,
      fun h => ⟨h.reading, fun _ he heq => h.alive (heq ▸ he)⟩⟩

theorem Unbroken.before {c c' : Conn} {e : Event} (h : Unbroken c')
    (hstep : step cjson c e = some c') : Unbroken c where
  reading := main_of_step cjson hstep h.reading
  alive hexpired := by
    obtain ⟨entries, hlogged⟩ := logged_step cjson hstep h.reading
    refine h.alive ?_
    rw [hlogged.log]
    exact List.mem_append_left _ hexpired

end Conn

namespace Pipeline

variable {cjson : Cjson}

theorem replyOf_eq_some {c : Conn} {syncBytes typ syncBytes' typ' : Int} {body body' : List UInt8}
    {binarydata : Option (List UInt8)} {res : Resources}
    (h : replyOf cjson c (.recv (.packet syncBytes typ body binarydata) res) =
      some (syncBytes', typ', body')) : syncBytes' = syncBytes ∧ Conn.answerOf typ = some typ' := by
  unfold replyOf at h
  dsimp only at h
  split at h
  · rename_i hproc
    obtain ⟨rfl, heq⟩ := Prod.mk.inj (Option.some.inj h)
    obtain ⟨rfl, rfl⟩ := Prod.mk.inj heq
    exact ⟨rfl, Conn.proc_typ cjson hproc⟩
  · cases h

theorem after_packet (cjson : Cjson) (c : Conn) (syncBytes typ : Int) (body : List UInt8)
    (binarydata : Option (List UInt8)) (res : Resources) :
    let c' := c.mainProc cjson (.packet syncBytes typ body binarydata) res
    c'.session.exit = c.session.exit ∧ c'.session.syncBytes = syncBytes ∧
      c'.notifyQueue = c.notifyQueue := by
  let d : Conn := { c with session.syncBytes := syncBytes }
  have hkept := Conn.Kept.proc cjson d typ body res
  have hid : (d.proc cjson typ body res).2.session.sessionid = c.session.sessionid :=
    (Conn.logged_proc cjson d typ body res).sessionid
  have hqueue : (d.proc cjson typ body res).2.notifyQueue = c.notifyQueue := by
    rw [Conn.notifyQueue, hid, hkept.notifyMsgQueue]
    rfl
  have hturn := Conn.packetTurn_mainProc cjson c syncBytes typ body binarydata res
  dsimp only
  generalize c.mainProc cjson _ res = c' at hturn ⊢
  cases hturn with
  | raised _ => exact ⟨hkept.exit, hkept.syncBytes, hqueue⟩
  | silent _ =>
      rw [Conn.loop_eq]
      exact ⟨hkept.exit, hkept.syncBytes, hqueue⟩
  | reply typ' body' _ =>
      rw [Conn.loop_eq]
      exact ⟨hkept.exit, hkept.syncBytes, hqueue⟩

theorem after_tick (c : Conn) (timerOk : Bool) :
    let c' := c.dealHeartBeat timerOk
    c'.session.exit = c.session.exit ∧ c'.session.syncBytes = c.session.syncBytes ∧
      c'.sendQueue = c.sendQueue ∧ c'.notifyThreads = c.notifyThreads ∧
        (c'.notifyQueue = c.notifyQueue ∨ c'.notifyQueue = [] ∧ Entry.expired ∈ c'.log) := by
  unfold Conn.dealHeartBeat
  split
  · refine ⟨rfl, rfl, rfl, rfl, .inr ⟨c.notifyQueue_sessionBrokenClean, ?_⟩⟩
    exact List.mem_append_right _ (List.mem_singleton.mpr rfl)
  · unfold Conn.countTick
    dsimp only
    split
    all_goals
      split
      all_goals exact ⟨rfl, rfl, rfl, rfl, .inl rfl⟩

def InSync (sync : Int → Prop) : Event → Prop
  | .turn (.recv (.packet syncBytes _ _ _) _) => sync syncBytes
  | _ => True

/-- `entered` is what went into `msg_queue` since the session began. -/
structure Outbox (sync : Int → Prop) (p : Pipeline) (entered : List Item) : Prop where
  sent : p.sent <+: entered.map Item.frame
  queued : p.conn.session.exit = false → entered.map Item.frame = p.sent ++ p.conn.sendQueue
  notifications : (entered.filterMap Item.message? ++ p.conn.notifyQueue).Sublist p.published
  kept : p.conn.Unbroken → entered.filterMap Item.message? ++ p.conn.notifyQueue = p.published
  replies : p.replies = entered.filterMap Item.reply?
  inSync : ∀ item ∈ entered, sync item.syncBytes
  threads : p.conn.notifyThreads ≠ [] → sync p.conn.session.syncBytes

namespace Outbox

variable {sync : Int → Prop} {p p' : Pipeline} {c' : Conn} {entered : List Item}

theorem publish (h : Outbox sync p entered) (msg : List UInt8) :
    Outbox sync (p.publish msg) entered := by
  have hqueue : (p.publish msg).conn.notifyQueue = p.conn.notifyQueue ++ [msg] :=
    Function.update_self _ _ _
  refine ⟨h.sent, h.queued, ?_, fun hunbroken => ?_, h.replies, h.inSync, h.threads⟩
  · rw [hqueue, ← List.append_assoc]
    exact h.notifications.append (.refl [msg])
  · have hsame : p.conn.Unbroken := ⟨hunbroken.reading, hunbroken.alive⟩
    rw [hqueue, ← List.append_assoc, h.kept hsame]
    rfl

/-- Nothing enters the queue, and what waits in the queues stays or is dropped. -/
theorem stay (h : Outbox sync p entered)
    (hsend : c'.session.exit = false → p.conn.session.exit = false ∧ c'.sendQueue = p.conn.sendQueue)
    (hnotify : c'.notifyQueue.Sublist p.conn.notifyQueue)
    (hbefore : c'.Unbroken → p.conn.Unbroken)
    (hkept : c'.Unbroken → c'.notifyQueue = p.conn.notifyQueue)
    (hthreads : c'.notifyThreads ≠ [] →
      p.conn.notifyThreads ≠ [] ∧ c'.session.syncBytes = p.conn.session.syncBytes) :
    Outbox sync { p with conn := c' } entered := by
  refine ⟨h.sent, fun hexit => ?_, (List.Sublist.append_left hnotify _).trans h.notifications,
    fun hunbroken => ?_, h.replies, h.inSync, fun hne => ?_⟩
  · obtain ⟨hexit', hqueue⟩ := hsend hexit
    rw [h.queued hexit']
    exact congrArg (p.sent ++ ·) hqueue.symm
  · rw [← h.kept (hbefore hunbroken)]
    exact congrArg (entered.filterMap Item.message? ++ ·) (hkept hunbroken)
  · obtain ⟨hne', hsync⟩ := hthreads hne
    rw [hsync]
    exact h.threads hne'

theorem enter (h : Outbox sync p entered) (new : List Item)
    (hexit : c'.session.exit = p.conn.session.exit)
    (hsend : c'.sendQueue = p.conn.sendQueue ++ new.map Item.frame)
    (hnotify : p.conn.notifyQueue = new.filterMap Item.message? ++ c'.notifyQueue)
    (hbefore : c'.Unbroken → p.conn.Unbroken)
    (hsync : ∀ item ∈ new, sync item.syncBytes)
    (hthreads : c'.notifyThreads ≠ [] → sync c'.session.syncBytes) :
    Outbox sync { p with conn := c', replies := p.replies ++ new.filterMap Item.reply? }
      (entered ++ new) := by
  have hentered : (entered ++ new).filterMap Item.message? ++ c'.notifyQueue =
      entered.filterMap Item.message? ++ p.conn.notifyQueue := by
    rw [List.filterMap_append, List.append_assoc, ← hnotify]
  refine ⟨?_, fun hexit' => ?_, ?_, fun hunbroken => ?_, ?_, ?_, hthreads⟩
  · rw [List.map_append]
    exact h.sent.trans (List.prefix_append _ _)
  · rw [List.map_append, h.queued (hexit.symm.trans hexit'), List.append_assoc]
    exact congrArg (p.sent ++ ·) hsend.symm
  · rw [hentered]
    exact h.notifications
  · exact hentered.trans (h.kept (hbefore hunbroken))
  · rw [List.filterMap_append, ← h.replies]
  · intro item hitem
    rcases List.mem_append.mp hitem with hold | hnew
    · exact h.inSync item hold
    · exact hsync item hnew

theorem packet (h : Outbox sync p entered) {syncBytes : Int} (hsync : sync syncBytes) (typ : Int)
    (body : List UInt8) (binarydata : Option (List UInt8)) (res : Resources)
    (hbefore : (p.conn.mainProc cjson (.packet syncBytes typ body binarydata) res).Unbroken →
      p.conn.Unbroken) :
    let e : Conn.Event := .recv (.packet syncBytes typ body binarydata) res
    ∃ entered', Outbox sync { p with
      conn := p.conn.mainProc cjson (.packet syncBytes typ body binarydata) res
      replies := p.replies ++ (replyOf cjson p.conn e).toList } entered' := by
  obtain ⟨new, hmoves, hreplies⟩ :=
    Conn.moves_packet cjson p.conn syncBytes typ body binarydata res
  obtain ⟨hexit, hsyncBytes, hqueue⟩ :=
    after_packet cjson p.conn syncBytes typ body binarydata res
  have hnotify := hmoves.notifyQueue
  refine ⟨entered ++ new, ?_⟩
  rw [← hreplies]
  refine h.enter new hexit hmoves.sendQueue.symm hnotify hbefore (fun item hitem => ?_) fun _ => by
    rw [hsyncBytes]
    exact hsync
  have hnone : new.filterMap Item.message? = [] := by
    rw [hqueue] at hnotify
    exact List.append_left_eq_self.mp hnotify.symm
  cases item with
  | notification syncBytes' message =>
      have hmem : message ∈ new.filterMap Item.message? := List.mem_filterMap.mpr ⟨_, hitem, rfl⟩
      rw [hnone] at hmem
      cases hmem
  | reply syncBytes' typ' body' =>
      have hmem : (syncBytes', typ', body') ∈ new.filterMap Item.reply? :=
        List.mem_filterMap.mpr ⟨_, hitem, rfl⟩
      rw [hreplies, Option.mem_toList] at hmem
      rw [Item.syncBytes, (replyOf_eq_some hmem).1]
      exact hsync

theorem err (h : Outbox sync p entered) (error : String) (res : Resources) :
    Outbox sync { p with conn := p.conn.mainProc cjson (.err error) res } entered := by
  have hcleared : (p.conn.mainProc cjson (.err error) res).notifyQueue = [] := by
    unfold Conn.mainProc
    dsimp only
    split
    · exact Conn.notifyQueue_sessionBrokenClean p.conn
    · exact Conn.notifyQueue_sessionBrokenClean p.conn
  have hnot (hunbroken : (p.conn.mainProc cjson (.err error) res).Unbroken) : False := by
    obtain ⟨-, syncBytes, typ, body, binarydata, hpacket⟩ :=
      Conn.main_mainProc cjson hunbroken.reading
    cases hpacket
  refine h.stay (fun hexit => ?_) (by rw [hcleared]; exact List.nil_sublist _)
    (fun hunbroken => (hnot hunbroken).elim) (fun hunbroken => (hnot hunbroken).elim) fun hne => ?_
  · unfold Conn.mainProc at hexit ⊢
    dsimp only at hexit ⊢
    split at hexit
    · rename_i hthread
      rw [if_pos hthread]
      exact ⟨hexit, rfl⟩
    · cases hexit
  · unfold Conn.mainProc at hne ⊢
    dsimp only at hne ⊢
    split at hne
    · rename_i hthread
      rw [if_pos hthread]
      exact ⟨hne, rfl⟩
    · rename_i hthread
      rw [if_neg hthread]
      exact ⟨hne, rfl⟩

theorem timer (h : Outbox sync p entered) (timerOk : Bool)
    (hbefore : ({ p.conn with timers := p.conn.timers - 1 }.dealHeartBeat timerOk).Unbroken →
      p.conn.Unbroken) :
    Outbox sync { p with
      conn := { p.conn with timers := p.conn.timers - 1 }.dealHeartBeat timerOk } entered := by
  obtain ⟨hexit, hsync, hsend, hthreads, hnotify⟩ :=
    after_tick { p.conn with timers := p.conn.timers - 1 } timerOk
  refine h.stay (fun hexit' => ⟨hexit.symm.trans hexit', hsend⟩) ?_ hbefore (fun hunbroken => ?_)
    fun hne => ⟨fun hnil => hne (hthreads.trans hnil), hsync⟩
  · rcases hnotify with hsame | ⟨hcleared, -⟩
    · rw [hsame]
      exact .refl _
    · rw [hcleared]
      exact List.nil_sublist _
  · rcases hnotify with hsame | ⟨-, hexpired⟩
    · exact hsame
    · exact absurd hexpired hunbroken.alive

theorem notify (h : Outbox sync p entered) {thread : Nat} (hthread : thread ∈ p.conn.notifyThreads) :
    ∃ entered', Outbox sync { p with conn := p.conn.notifyMsgProc thread } entered' := by
  unfold Conn.notifyMsgProc
  split
  · refine ⟨entered, h.stay (fun hexit => ⟨hexit, rfl⟩) (.refl _) (fun hunbroken => ?_)
      (fun _ => rfl) fun _ => ⟨List.ne_nil_of_mem hthread, rfl⟩⟩
    exact ⟨hunbroken.reading, hunbroken.alive⟩
  · split
    · exact ⟨entered, h⟩
    · rename_i message rest hqueue
      have hsync := h.threads (List.ne_nil_of_mem hthread)
      let popped : Conn := { p.conn with
        shared.notifyMsgQueue :=
          Function.update p.conn.shared.notifyMsgQueue p.conn.session.sessionid rest }
      have hafter : (popped.pushMsgToSendqueue kUpdateFileNtf message).notifyQueue = rest :=
        Function.update_self _ _ _
      have hsend := popped.sendQueue_pushMsgToSendqueue kUpdateFileNtf message
      have hunbroken (h : (popped.pushMsgToSendqueue kUpdateFileNtf message).Unbroken) :
          p.conn.Unbroken := ⟨h.reading, h.alive⟩
      let pushed := popped.pushMsgToSendqueue kUpdateFileNtf message
      have hentered : Outbox sync { p with
          conn := pushed
          replies := p.replies ++ [Item.notification p.conn.session.syncBytes message].filterMap
            Item.reply? } _ := h.enter [.notification p.conn.session.syncBytes message] rfl hsend
        (hqueue.trans (congrArg (message :: ·) hafter.symm)) hunbroken
        (by simpa [Item.syncBytes] using hsync) fun _ => hsync
      have hreplies : p.replies ++ [Item.notification p.conn.session.syncBytes message].filterMap
          Item.reply? = p.replies := List.append_nil _
      rw [hreplies] at hentered
      exact ⟨_, hentered⟩

/-- What the sender takes is the front of the queue, also when the socket does not take it. -/
theorem send (h : Outbox sync p entered) (ok : Bool) :
    Outbox sync { p with
      conn := p.conn.sendMessage ok
      sent := p.sent ++ (handedOver p.conn (.send ok)).toList } entered := by
  unfold Conn.sendMessage handedOver
  by_cases hexit : p.conn.session.exit = true
  · rw [if_pos hexit, if_pos hexit, Option.toList_none, List.append_nil]
    exact h.stay (fun hexit' => ⟨hexit', rfl⟩) (.refl _) (fun h => ⟨h.reading, h.alive⟩)
      (fun _ => rfl) fun hne => ⟨hne, rfl⟩
  · have hqueued := h.queued (by simpa using hexit)
    have hexit' : p.conn.session.exit = false := by simpa using hexit
    rw [if_neg hexit, if_neg hexit]
    split
    · rename_i hqueue
      have hnone : p.conn.sendQueue.head? = none := by rw [Conn.sendQueue, hqueue, List.head?_nil]
      rw [hnone, Option.toList_none, List.append_nil]
      exact h
    · rename_i message rest hqueue
      have hqueue : p.conn.sendQueue = message :: rest := hqueue
      rw [hqueue] at hqueued
      have hhead : p.conn.sendQueue.head?.toList = [message] := by rw [hqueue]; rfl
      have hsent : p.sent ++ [message] <+: entered.map Item.frame :=
        ⟨rest, by rw [hqueued, List.append_assoc, List.singleton_append]⟩
      rw [hhead]
      cases ok with
      | false =>
          refine ⟨hsent, fun hlive => ?_, h.notifications, fun h' => h.kept ⟨h'.reading, h'.alive⟩,
            h.replies, h.inSync, h.threads⟩
          cases hlive
      | true =>
          refine ⟨hsent, fun _ => ?_, h.notifications, fun h' => h.kept ⟨h'.reading, h'.alive⟩,
            h.replies, h.inSync, h.threads⟩
          have hafter : Function.update p.conn.shared.msgQueue p.conn.session.sessionid rest
              p.conn.session.sessionid = rest := Function.update_self _ _ _
          rw [hqueued, List.append_assoc, List.singleton_append]
          exact congrArg (fun queue => p.sent ++ message :: queue) hafter.symm

theorem step (h : Outbox sync p entered) {e : Event} (hsync : InSync sync e)
    (hstep : Pipeline.step cjson p e = some p') : ∃ entered', Outbox sync p' entered' := by
  cases e with
  | publish msg =>
      obtain rfl := Option.some.inj hstep
      exact ⟨entered, h.publish msg⟩
  | turn e =>
      obtain ⟨c', hturn, rfl⟩ := Option.map_eq_some_iff.mp hstep
      have hquiet {p' : Pipeline} (hnothing : p' = { p with conn := c' }) (hout : ∃ entered',
          Outbox sync { p with conn := c' } entered') : ∃ entered', Outbox sync p' entered' := by
        rw [hnothing]
        exact hout
      have hbefore (hunbroken : c'.Unbroken) := hunbroken.before cjson hturn
      cases Conn.turn_of_step cjson hturn with
      | recv received res hreading =>
          cases received with
          | raised =>
              refine hquiet (by simp [replyOf, handedOver]) ⟨entered, ?_⟩
              exact h.stay (fun hexit => ⟨hexit, rfl⟩) (.refl _) hbefore (fun _ => rfl)
                fun hne => ⟨hne, rfl⟩
          | err error =>
              exact hquiet (by simp [replyOf, handedOver]) ⟨entered, h.err error res⟩
          | packet syncBytes typ body binarydata =>
              obtain ⟨entered', hout⟩ := h.packet hsync typ body binarydata res hbefore
              refine ⟨entered', ?_⟩
              have hnothing : handedOver p.conn
                  (.recv (.packet syncBytes typ body binarydata) res) = none := rfl
              rw [hnothing, Option.toList_none, List.append_nil]
              exact hout
      | joined hwaiting hended =>
          refine hquiet (by simp [replyOf, handedOver]) ⟨entered, ?_⟩
          exact h.stay (fun hexit => by cases hexit) (.refl _) hbefore (fun _ => rfl)
            fun hne => ⟨hne, rfl⟩
      | timer timerOk htimers =>
          exact hquiet (by simp [replyOf, handedOver]) ⟨entered, h.timer timerOk hbefore⟩
      | notify thread hthread =>
          exact hquiet (by simp [replyOf, handedOver]) (h.notify hthread)
      | send ok hsender =>
          have hnothing : replyOf cjson p.conn (.send ok) = none := rfl
          refine ⟨entered, ?_⟩
          rw [hnothing, Option.toList_none, List.append_nil]
          exact h.send ok

end Outbox

theorem outbox_connect {sessionid : String} {shared : Shared} (sync : Int → Prop)
    (hmsg : shared.msgQueue sessionid = []) (hnotify : shared.notifyMsgQueue sessionid = []) :
    Outbox sync (start (Conn.connect sessionid shared)) [] where
  sent := List.nil_prefix
  queued _ := hmsg.symm
  notifications := by
    show List.Sublist (shared.notifyMsgQueue sessionid) []
    rw [hnotify]
  kept _ := hnotify
  replies := rfl
  inSync := nofun
  threads h := absurd rfl h

/-- A session from its first turn on, with any number of publishers, timers and threads, whether
it is logged in or not, expires, fails to send or ends: the notifications handed to the socket
are some of those published, each at most once and in publish order, the replies are the first of
those that `proc` returned, and each frame has the sync bytes of a packet that was received. -/
theorem run_outbox {sessionid : String} {shared : Shared} {events : List Event} {p : Pipeline}
    {sync : Int → Prop} (hmsg : shared.msgQueue sessionid = [])
    (hnotify : shared.notifyMsgQueue sessionid = [])
    (hrun : run (step cjson) (start (Conn.connect sessionid shared)) events = some p)
    (hsync : ∀ e ∈ events, InSync sync e) :
    ∃ sent : List Item, p.sent = sent.map Item.frame ∧
      (sent.filterMap Item.message?).Sublist p.published ∧
      sent.filterMap Item.reply? <+: p.replies ∧ ∀ item ∈ sent, sync item.syncBytes := by
  have hout : ∃ entered, Outbox sync p entered := by
    have hkeep : ∀ p e p', (∃ entered, Outbox sync p entered) → InSync sync e →
        step cjson p e = some p' → ∃ entered, Outbox sync p' entered :=
      fun p e p' ⟨entered, h⟩ hsync hstep => h.step hsync hstep
    exact run_guarded hkeep ⟨[], outbox_connect sync hmsg hnotify⟩
      (allSteps_of_forall_mem hsync _) hrun
  obtain ⟨entered, h⟩ := hout
  obtain ⟨sent, hsent, hframes⟩ := List.prefix_map_iff.mp h.sent
  refine ⟨sent, hframes, ?_, ?_, fun item hitem => h.inSync item (hsent.subset hitem)⟩
  · have hmessages := (hsent.filterMap Item.message?).sublist
    exact hmessages.trans ((List.sublist_append_left _ _).trans h.notifications)
  · rw [h.replies]
    exact hsent.filterMap Item.reply?

/-- A notification is sent, the session fails to send the next one, and a third is published. -/
def failingEvents : List Event :=
  [.turn (Conn.loginEvent "\"a\""), .publish [0x31], .publish [0x32], .turn (.notify 0),
    .turn (.notify 0), .turn (.send true), .turn (.send true), .turn (.send false), .publish [0x33],
    .turn (.notify 0)]

theorem run_outbox_failing :
    ∃ p, run (step Conn.sampleCjson) (start (Conn.connect "client_127_0_0_1_9000"
          Conn.sampleShared)) failingEvents = some p ∧
      ∃ sent : List Item, p.sent = sent.map Item.frame ∧
        (sent.filterMap Item.message?).Sublist p.published ∧
        sent.filterMap Item.reply? <+: p.replies ∧
          ∀ item ∈ sent, item.syncBytes = 0x01010101 := by
  have hsome : (run (step Conn.sampleCjson) (start (Conn.connect "client_127_0_0_1_9000"
      Conn.sampleShared)) failingEvents).isSome := by
    decide +kernel
  obtain ⟨p, hrun⟩ := Option.isSome_iff_exists.mp hsome
  have hsync : ∀ e ∈ failingEvents, InSync (· = 0x01010101) e := by
    simp [failingEvents, InSync, Conn.loginEvent]
  exact ⟨p, hrun, run_outbox rfl rfl hrun hsync⟩

end Pipeline

end CloudEdgePush.Server
