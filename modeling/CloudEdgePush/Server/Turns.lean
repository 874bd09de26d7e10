import CloudEdgePush.Server.Registration

/-!
# Turns of the reader

Which messages make a handler raise (`raises`), and what no handler touches (`Kept`).
-/

namespace CloudEdgePush.Server

open CloudEdgePush.Server.MessagePacket CloudEdgePush.Server.MessageDef

def Json.indexable : Option Json → Bool
  | some (.obj _) => true
  | some (.arr _) => true
  | some (.str _) => true
  | _ => false

theorem Json.index_eq_none_iff (v : Option Json) (key : String) :
    Json.index v key = none ↔ Json.indexable v = false := by
  match v with
  | none => exact iff_of_true rfl rfl
  | some .null => exact iff_of_true rfl rfl
  | some (.bool _) => exact iff_of_true rfl rfl
  | some (.num _) => exact iff_of_true rfl rfl
  | some (.str _) => exact iff_of_false nofun nofun
  | some (.arr _) => exact iff_of_false nofun nofun
  | some (.obj _) => exact iff_of_false nofun nofun

namespace Conn

/-- The messages for which `proc` raises: bodies that cannot be indexed where the handler does
so, and a login request whose timer cannot be created. -/
def raises (isLogin : Bool) (typ : Int) (tbl : Option Json) (timerOk : Bool) : Bool :=
  if typ = kLoginReq then
    !Json.indexable tbl || !isLogin && ((requestedType tbl).isNone || !timerOk)
  else if typ = kHeartReq then !Json.indexable tbl
  else if typ = kSendFileInfosNtf then
    match Json.index tbl "data" with
    | none => true
    | some data => !Json.indexable data
  else false

variable (cjson : Cjson)

theorem encodeReply_raised_iff (tbl : Option Json) (reply : Reply) :
    encodeReply cjson tbl reply = .raised ↔ Json.indexable tbl = false := by
  rw [← Json.index_eq_none_iff tbl "timestamp"]
  unfold encodeReply
  split
  · rename_i hindex
    simp [hindex]
  · rename_i hindex
    simp [hindex]

theorem finish_raised_iff (tbl : Option Json) (result : Outcome (Option Reply) × Conn) :
    (finish cjson tbl result).1 = .raised ↔
      result.1 = .raised ∨ result.1 = .returned none ∨ Json.indexable tbl = false := by
  obtain ⟨outcome, c⟩ := result
  cases outcome with
  | raised => simp [finish]
  | returned reply =>
      cases reply with
      | none => simp [finish]
      | some reply => simp [finish, encodeReply_raised_iff]

theorem doLoginReq_raised_iff (c : Conn) (tbl : Option Json) (res : Resources) :
    (c.doLoginReq tbl res).1 = .raised ∨ (c.doLoginReq tbl res).1 = .returned none ↔
      c.session.isLogin = false ∧ (requestedType tbl = none ∨ res.timerOk = false) := by
  have hstart (d : Conn) : (d.startSession res.timerOk).1 = .raised ∨
      (d.startSession res.timerOk).1 = .returned none ↔ res.timerOk = false := by
    cases htimer : res.timerOk with
    | true => simp [startSession]
    | false => simp [startSession]
  unfold doLoginReq
  by_cases hlogin : c.session.isLogin = true
  · simp [hlogin]
  · rw [if_neg hlogin]
    cases hrequested : requestedType tbl with
    | none => simpa using hlogin
    | some type =>
        cases type with
        | none => simpa [hlogin] using hstart _
        | some type => simpa [hlogin] using hstart _

theorem doHeartReq_raised (c : Conn) {tbl : Option Json}
    (h : (c.doHeartReq tbl).1 = .raised ∨ (c.doHeartReq tbl).1 = .returned none) :
    Json.indexable tbl = false := by
  unfold doHeartReq at h
  dsimp only at h
  split at h
  · simp at h
  · split at h
    · rename_i hindex
      exact (Json.index_eq_none_iff _ _).mp hindex
    · simp at h

theorem doRecvFileinfosNtf_raised_iff (tbl : Option Json) :
    doRecvFileinfosNtf tbl = .raised ↔
      (match Json.index tbl "data" with
        | none => true
        | some data => !Json.indexable data) = true := by
  unfold doRecvFileinfosNtf
  cases hdata : Json.index tbl "data" with
  | none => simp
  | some data =>
      simp only [Bool.not_eq_true', ← Json.index_eq_none_iff data "file_infos"]
      cases Json.index data "file_infos" with
      | none => simp
      | some infos => simp

theorem proc_raised_iff (c : Conn) (typ : Int) (body : List UInt8) (res : Resources) :
    (c.proc cjson typ body res).1 = .raised ↔
      raises c.session.isLogin typ (cjson.decode body) res.timerOk = true := by
  unfold proc raises
  dsimp only
  by_cases hlogin : typ = kLoginReq
  · rw [if_pos hlogin, if_pos hlogin, finish_raised_iff, ← or_assoc, doLoginReq_raised_iff, or_comm]
    simp
  · rw [if_neg hlogin, if_neg hlogin]
    by_cases hheart : typ = kHeartReq
    · rw [if_pos hheart, if_pos hheart, finish_raised_iff, ← or_assoc, Bool.not_eq_true',
        or_iff_right_iff_imp]
      exact doHeartReq_raised c
    · rw [if_neg hheart, if_neg hheart]
      by_cases hinfos : typ = kSendFileInfosNtf
      · rw [if_pos hinfos, if_pos hinfos, ← doRecvFileinfosNtf_raised_iff]
        cases doRecvFileinfosNtf (cjson.decode body) with
        | raised => simp
        | returned _ => simp
      · simp [hinfos]

/-! ## What no handler touches -/

theorem rel_doLoginReq (R : Conn → Conn → Prop) (htrans : ∀ {a b c}, R a b → R b c → R a c)
    (c : Conn) (tbl : Option Json) (res : Resources)
    (hlog : ∀ log isLogin, R c { c with log, session.isLogin := isLogin })
    (htype : ∀ c type, R c (c.setType type res.evicted))
    (hstart : ∀ c, R c (c.startSession res.timerOk).2) :
    R c (c.doLoginReq tbl res).2 := by
  unfold doLoginReq
  by_cases hlogin : c.session.isLogin = true
  · rw [if_pos hlogin]
    exact hlog _ c.session.isLogin
  · rw [if_neg hlogin]
    cases requestedType tbl with
    | none => exact hlog _ true
    | some type =>
        cases type with
        | none => exact htrans (hlog _ true) (hstart _)
        | some type => exact htrans (hlog _ true) (htrans (htype _ type) (hstart _))

theorem rel_proc (R : Conn → Conn → Prop) (htrans : ∀ {a b c}, R a b → R b c → R a c)
    (c : Conn) (typ : Int) (body : List UInt8) (res : Resources)
    (hlog : ∀ log isLogin heartBeatFlag, R c
      { c with log, session.isLogin := isLogin, session.heartBeatFlag := heartBeatFlag })
    (htype : ∀ c type, R c (c.setType type res.evicted))
    (hstart : ∀ c, R c (c.startSession res.timerOk).2) :
    R c (c.proc cjson typ body res).2 := by
  rw [proc_snd]
  by_cases hlogin : typ = kLoginReq
  · rw [if_pos hlogin]
    apply rel_doLoginReq R htrans
    · intro log isLogin
      exact hlog log isLogin c.session.heartBeatFlag
    · exact htype
    · exact hstart
  · rw [if_neg hlogin]
    by_cases hheart : typ = kHeartReq
    · rw [if_pos hheart, doHeartReq_snd]
      exact hlog _ c.session.isLogin true
    · rw [if_neg hheart]
      exact hlog c.log c.session.isLogin c.session.heartBeatFlag

structure Kept (c c' : Conn) : Prop where
  exit : c'.session.exit = c.session.exit
  syncBytes : c'.session.syncBytes = c.session.syncBytes
  sender : c'.sender = c.sender
  notifyMsgQueue : c'.shared.notifyMsgQueue = c.shared.notifyMsgQueue
  msgQueue : c'.shared.msgQueue = c.shared.msgQueue

namespace Kept

theorem trans {c c' c'' : Conn} (h : Kept c c') (h' : Kept c' c'') : Kept c c'' where
  exit := h'.exit.trans h.exit
  syncBytes := h'.syncBytes.trans h.syncBytes
  sender := h'.sender.trans h.sender
  notifyMsgQueue := h'.notifyMsgQueue.trans h.notifyMsgQueue
  msgQueue := h'.msgQueue.trans h.msgQueue

theorem startSession (c : Conn) (timerOk : Bool) : Kept c (c.startSession timerOk).2 := by
  cases timerOk with
  | true => exact ⟨rfl, rfl, rfl, rfl, rfl⟩
  | false => exact ⟨rfl, rfl, rfl, rfl, rfl⟩

theorem setType (c : Conn) (type : Json) (evicted : List String) :
    Kept c (c.setType type evicted) := by
  unfold Conn.setType
  dsimp only
  split
  · exact ⟨rfl, rfl, rfl, rfl, rfl⟩
  · exact ⟨rfl, rfl, rfl, rfl, rfl⟩

theorem proc (c : Conn) (typ : Int) (body : List UInt8) (res : Resources) :
    Kept c (c.proc cjson typ body res).2 := by
  apply rel_proc cjson Kept Kept.trans
  · intro log isLogin heartBeatFlag
    exact ⟨rfl, rfl, rfl, rfl, rfl⟩
  · intro c type
    exact setType c type res.evicted
  · intro c
    exact startSession c res.timerOk

end Kept

/-! ## The queues of a session -/

def notifyQueue (c : Conn) : List (List UInt8) := c.shared.notifyMsgQueue c.session.sessionid

def sendQueue (c : Conn) : List (List UInt8) := c.shared.msgQueue c.session.sessionid

theorem sendQueue_pushMsgToSendqueue (c : Conn) (typ : Int) (body : List UInt8) :
    (c.pushMsgToSendqueue typ body).sendQueue =
      c.sendQueue ++ [packetMessage c.session.syncBytes typ body] := Function.update_self _ _ _

/-! ## The session id -/

theorem sessionid_mainProc (c : Conn) (received : RecvResult) (res : Resources) :
    (c.mainProc cjson received res).session.sessionid = c.session.sessionid := by
  cases received with
  | raised => rfl
  | err error =>
      unfold mainProc
      dsimp only
      split
      · rfl
      · rfl
  | packet syncBytes typ body binarydata =>
      let d : Conn := { c with session.syncBytes := syncBytes }
      have hid : (d.proc cjson typ body res).2.session.sessionid = c.session.sessionid :=
        (logged_proc cjson d typ body res).sessionid
      have hturn := packetTurn_mainProc cjson c syncBytes typ body binarydata res
      generalize c.mainProc cjson _ res = c' at hturn ⊢
      cases hturn with
      | raised _ => exact hid
      | silent _ =>
          rw [loop_eq]
          exact hid
      | reply typ' body' _ =>
          rw [loop_eq]
          exact hid

theorem sessionid_step {c c' : Conn} {e : Event} (hstep : step cjson c e = some c') :
    c'.session.sessionid = c.session.sessionid := by
  cases turn_of_step cjson hstep with
  | recv received res _ =>
      exact sessionid_mainProc cjson c received res
  | joined _ _ =>
      rfl
  | timer timerOk _ =>
      exact (logged_dealHeartBeat { c with timers := c.timers - 1 } timerOk).sessionid
  | notify thread _ =>
      exact (logged_notifyMsgProc c thread).sessionid
  | send ok _ =>
      exact (logged_sendMessage c ok).sessionid

end Conn

end CloudEdgePush.Server
