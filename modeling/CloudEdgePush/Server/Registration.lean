import CloudEdgePush.Lib.History
import CloudEdgePush.Lib.Transition
import CloudEdgePush.Server.Session

/-!
# Registration of a session

What a turn of a session does to the log of the server, to the counters of the heartbeat monitor
(`Logged`) and to `tcp_client_types`: `entryAfter` says it for every key of the map, the
session's own and those of the others, without the handlers.
-/

namespace CloudEdgePush.Server

open CloudEdgePush.Lib CloudEdgePush.Lib.Transition
open CloudEdgePush.Server.MessagePacket CloudEdgePush.Server.MessageDef

/-- What the monitor knows: ticks in a row without heartbeat, and whether one came since. -/
structure Monitor where
  noHeartTime : Nat
  heartBeatFlag : Bool

def Monitor.next (m : Monitor) : Entry → Monitor
  | .heartReq => { m with heartBeatFlag := true }
  | .tick => if m.heartBeatFlag then ⟨0, false⟩ else ⟨m.noHeartTime + 1, false⟩
  | .loginReq _ => m
  | .expired => m

namespace Conn

def monitor (c : Conn) : Monitor := ⟨c.session.noHeartTime, c.session.heartBeatFlag⟩

/-- From `c` to `c'` the session is the same one and these entries were logged; they say what
happened to the monitor. -/
structure Logged (entries : List Entry) (c c' : Conn) : Prop where
  sessionid : c'.session.sessionid = c.session.sessionid
  main : c'.main = c.main
  log : c'.log = c.log ++ entries
  monitor : c'.monitor = entries.foldl Monitor.next c.monitor

namespace Logged

theorem quiet {c c' : Conn} (hsessionid : c'.session.sessionid = c.session.sessionid)
    (hmain : c'.main = c.main) (hlog : c'.log = c.log) (hmonitor : c'.monitor = c.monitor) :
    Logged [] c c' where
  sessionid := hsessionid
  main := hmain
  log := hlog.trans (List.append_nil _).symm
  monitor := hmonitor

theorem refl (c : Conn) : Logged [] c c := quiet rfl rfl rfl rfl

theorem trans {entries entries' : List Entry} {c c' c'' : Conn} (h : Logged entries c c')
    (h' : Logged entries' c' c'') : Logged (entries ++ entries') c c'' where
  sessionid := h'.sessionid.trans h.sessionid
  main := h'.main.trans h.main
  log := by rw [h'.log, h.log, List.append_assoc]
  monitor := by rw [h'.monitor, h.monitor, List.foldl_append]

end Logged

/-! ## The handlers -/

theorem logged_startSession (c : Conn) (timerOk : Bool) : Logged [] c (c.startSession timerOk).2 := by
  unfold startSession
  cases timerOk with
  | true => exact Logged.quiet rfl rfl rfl rfl
  | false => exact Logged.quiet rfl rfl rfl rfl

theorem logged_doLoginReq (c : Conn) (tbl : Option Json) (res : Resources) :
    Logged [.loginReq ((requestedType tbl).getD none)] c (c.doLoginReq tbl res).2 := by
  have hlog (isLogin : Bool) : Logged [.loginReq ((requestedType tbl).getD none)] c
      { c with
        log := c.log ++ [.loginReq ((requestedType tbl).getD none)]
        session.isLogin := isLogin } :=
    ⟨rfl, rfl, rfl, rfl⟩
  have hset (d : Conn) (type : Json) : Logged [] d (d.setType type res.evicted) := by
    unfold setType
    dsimp only
    split
    · exact .quiet rfl rfl rfl rfl
    · exact .quiet rfl rfl rfl rfl
  unfold doLoginReq
  by_cases hlogin : c.session.isLogin = true
  · rw [if_pos hlogin]
    exact hlog c.session.isLogin
  · rw [if_neg hlogin]
    generalize requestedType tbl = requested at hlog ⊢
    cases requested with
    | none => exact hlog true
    | some type =>
        cases type with
        | none => exact (hlog true).trans (logged_startSession _ res.timerOk)
        | some type =>
            exact (hlog true).trans ((hset _ type).trans (logged_startSession _ res.timerOk))

theorem doHeartReq_snd (c : Conn) (tbl : Option Json) :
    (c.doHeartReq tbl).2 =
      { c with session.heartBeatFlag := true, log := c.log ++ [.heartReq] } := by
  unfold doHeartReq
  cases Json.truthy tbl with
  | true => rfl
  | false => cases Json.index tbl "data" <;> rfl

theorem logged_doHeartReq (c : Conn) (tbl : Option Json) :
    Logged [.heartReq] c (c.doHeartReq tbl).2 := by
  rw [doHeartReq_snd]
  exact ⟨rfl, rfl, rfl, rfl⟩

variable (cjson : Cjson)

theorem finish_snd (tbl : Option Json) (result : Outcome (Option Reply) × Conn) :
    (finish cjson tbl result).2 = result.2 := by
  obtain ⟨outcome, c⟩ := result
  cases outcome with
  | raised => rfl
  | returned reply =>
      cases reply with
      | none => rfl
      | some reply => rfl

theorem proc_snd (c : Conn) (typ : Int) (body : List UInt8) (res : Resources) :
    (c.proc cjson typ body res).2 =
      if typ = kLoginReq then (c.doLoginReq (cjson.decode body) res).2
      else if typ = kHeartReq then (c.doHeartReq (cjson.decode body)).2
      else c := by
  unfold proc
  by_cases hlogin : typ = kLoginReq
  · rw [if_pos hlogin, if_pos hlogin, finish_snd]
  · rw [if_neg hlogin, if_neg hlogin]
    by_cases hheart : typ = kHeartReq
    · rw [if_pos hheart, if_pos hheart, finish_snd]
    · rw [if_neg hheart, if_neg hheart]
      by_cases hinfos : typ = kSendFileInfosNtf
      · rw [if_pos hinfos]
        cases doRecvFileinfosNtf (cjson.decode body) <;> rfl
      · rw [if_neg hinfos]

def messageEntries (typ : Int) (tbl : Option Json) : List Entry :=
  if typ = kLoginReq then [.loginReq ((requestedType tbl).getD none)]
  else if typ = kHeartReq then [.heartReq]
  else []

theorem logged_proc (c : Conn) (typ : Int) (body : List UInt8) (res : Resources) :
    Logged (messageEntries typ (cjson.decode body)) c (c.proc cjson typ body res).2 := by
  rw [proc_snd, messageEntries]
  by_cases hlogin : typ = kLoginReq
  · rw [if_pos hlogin, if_pos hlogin]
    exact logged_doLoginReq c _ res
  · rw [if_neg hlogin, if_neg hlogin]
    by_cases hheart : typ = kHeartReq
    · rw [if_pos hheart, if_pos hheart]
      exact logged_doHeartReq c _
    · rw [if_neg hheart, if_neg hheart]
      exact Logged.refl c

theorem logged_countTick (c : Conn) : Logged [.tick] c c.countTick := by
  have hmonitor : Monitor.next c.monitor .tick = if c.session.heartBeatFlag then ⟨0, false⟩
      else ⟨c.session.noHeartTime + 1, false⟩ := rfl
  unfold countTick
  cases hflag : c.session.heartBeatFlag with
  | true =>
      rw [hflag] at hmonitor
      exact ⟨rfl, rfl, rfl, hmonitor.symm⟩
  | false =>
      rw [hflag] at hmonitor
      refine ⟨rfl, rfl, rfl, Eq.trans ?_ hmonitor.symm⟩
      show Monitor.mk _ c.session.heartBeatFlag = _
      rw [hflag]
      rfl

def monitorEntry (c : Conn) : Entry :=
  if NO_HEART_BEAT_THRESHOLD = c.session.noHeartTime then .expired else .tick

theorem logged_dealHeartBeat (c : Conn) (timerOk : Bool) :
    Logged [c.monitorEntry] c (c.dealHeartBeat timerOk) := by
  unfold dealHeartBeat monitorEntry
  by_cases hsilent : NO_HEART_BEAT_THRESHOLD = c.session.noHeartTime
  · rw [if_pos hsilent, if_pos hsilent]
    exact ⟨rfl, rfl, rfl, rfl⟩
  · rw [if_neg hsilent, if_neg hsilent]
    have hcount := logged_countTick c
    cases timerOk with
    | true =>
        have htimer : Logged [] c.countTick { c.countTick with timers := c.countTick.timers + 1 } :=
          Logged.quiet rfl rfl rfl rfl
        exact hcount.trans htimer
    | false => exact hcount

theorem loop_eq (c : Conn) :
    c.loop = { c with main := if c.session.exit then .ended else c.main } := by
  unfold loop
  split
  · rfl
  · rfl

/-- How `_main_proc` goes on from the result of `proc`. -/
inductive PacketTurn (result : Outcome (Option (Int × List UInt8)) × Conn) : Conn → Prop
  | raised (h : result.1 = .raised) : PacketTurn result { result.2 with main := .ended }
  | silent (h : result.1 = .returned none) : PacketTurn result result.2.loop
  | reply (typ : Int) (body : List UInt8) (h : result.1 = .returned (some (typ, body))) :
      PacketTurn result (result.2.pushMsgToSendqueue typ body).loop

theorem packetTurn_mainProc (c : Conn) (syncBytes typ : Int) (body : List UInt8)
    (binarydata : Option (List UInt8)) (res : Resources) :
    PacketTurn ({ c with session.syncBytes := syncBytes }.proc cjson typ body res)
      (c.mainProc cjson (.packet syncBytes typ body binarydata) res) := by
  unfold mainProc
  dsimp only
  generalize Conn.proc cjson _ typ body res = result
  obtain ⟨outcome, c'⟩ := result
  cases outcome with
  | raised => exact .raised rfl
  | returned reply =>
      cases reply with
      | none => exact .silent rfl
      | some reply => exact .reply _ _ rfl

theorem logged_loop {entries : List Entry} {c c' : Conn} (h : Logged entries c c')
    (hreading : c'.loop.main = .reading) : Logged entries c c'.loop := by
  unfold loop at hreading ⊢
  by_cases hexit : c'.session.exit = true
  · rw [if_pos hexit] at hreading
    cases hreading
  · rw [if_neg hexit]
    exact h

theorem logged_mainProc {c : Conn} {received : RecvResult} {res : Resources}
    (hreading : (c.mainProc cjson received res).main = .reading) :
    ∃ entries, Logged entries c (c.mainProc cjson received res) := by
  cases received with
  | raised => cases hreading
  | err error =>
      unfold mainProc at hreading
      dsimp only at hreading
      split at hreading
      · cases hreading
      · cases hreading
  | packet syncBytes typ body binarydata =>
      let d : Conn := { c with session.syncBytes := syncBytes }
      have hset : Logged [] c d := Logged.quiet rfl rfl rfl rfl
      have hproc := hset.trans (logged_proc cjson d typ body res)
      have hturn := packetTurn_mainProc cjson c syncBytes typ body binarydata res
      generalize c.mainProc cjson _ res = c' at hturn hreading ⊢
      cases hturn with
      | raised _ => cases hreading
      | silent _ => exact ⟨_, logged_loop hproc hreading⟩
      | reply typ' body' _ =>
          have hpush : Logged [] (d.proc cjson typ body res).2
              ((d.proc cjson typ body res).2.pushMsgToSendqueue typ' body') :=
            Logged.quiet rfl rfl rfl rfl
          exact ⟨_, logged_loop (hproc.trans hpush) hreading⟩

theorem logged_notifyMsgProc (c : Conn) (thread : Nat) : Logged [] c (c.notifyMsgProc thread) := by
  unfold notifyMsgProc
  split
  · exact Logged.quiet rfl rfl rfl rfl
  · split
    · exact Logged.refl c
    · exact Logged.quiet rfl rfl rfl rfl

theorem logged_sendMessage (c : Conn) (ok : Bool) : Logged [] c (c.sendMessage ok) := by
  unfold sendMessage
  split
  · exact Logged.quiet rfl rfl rfl rfl
  · split
    · exact Logged.refl c
    · cases ok with
      | true => exact Logged.quiet rfl rfl rfl rfl
      | false => exact Logged.quiet rfl rfl rfl rfl

/-- While `_main_proc` goes on reading, a turn only adds to the log. -/
theorem logged_step {c c' : Conn} {e : Event} (hstep : step cjson c e = some c')
    (hreading : c'.main = .reading) : ∃ entries, Logged entries c c' := by
  cases turn_of_step cjson hstep with
  | recv received res _ =>
      exact logged_mainProc cjson hreading
  | joined _ _ =>
      cases hreading
  | timer timerOk _ =>
      have htimer : Logged [] c { c with timers := c.timers - 1 } := Logged.quiet rfl rfl rfl rfl
      exact ⟨_, htimer.trans (logged_dealHeartBeat _ timerOk)⟩
  | notify thread _ =>
      exact ⟨[], logged_notifyMsgProc c thread⟩
  | send ok _ =>
      exact ⟨[], logged_sendMessage c ok⟩

/-! ## The registered sessions -/

theorem lookup_evict (types : ClientTypes) (keys : List String) (key : String) :
    (types.evict keys).lookup key = if key ∈ keys then none else types.lookup key := by
  induction keys with
  | nil => simp [ClientTypes.evict]
  | cons k keys ih =>
      have hcons : types.evict (k :: keys) = (types.evict keys).erase k := rfl
      by_cases hk : key = k
      · rw [hcons, hk, AList.lookup_erase, if_pos List.mem_cons_self]
      · rw [hcons, AList.lookup_erase_ne hk, ih]
        simp [hk]

/-- The type that a message registers for its session. -/
def registers (isLogin : Bool) (typ : Int) (tbl : Option Json) : Option Json :=
  if typ = kLoginReq ∧ isLogin = false then (requestedType tbl).join.filter Json.storable else none

def entryUnder (c : Conn) (res : Resources) (key : String) : Option Json → Option Json
  | none => c.shared.clientTypes.lookup key
  | some type =>
      if key ∈ res.evicted then none
      else if key = c.session.sessionid then some type
      else c.shared.clientTypes.lookup key

theorem lookup_setType (c : Conn) (type : Json) (res : Resources) (key : String) :
    (c.setType type res.evicted).shared.clientTypes.lookup key =
      c.entryUnder res key ((some type).filter Json.storable) := by
  unfold setType
  cases hstorable : type.storable with
  | false => simp [Option.filter, hstorable, entryUnder]
  | true =>
      simp only [Option.filter, hstorable, if_true, entryUnder, lookup_evict]
      by_cases hkey : key = c.session.sessionid
      · rw [if_pos hkey, hkey, AList.lookup_insert]
      · rw [if_neg hkey, AList.lookup_insert_ne hkey]

theorem clientTypes_startSession (c : Conn) (timerOk : Bool) :
    (c.startSession timerOk).2.shared.clientTypes = c.shared.clientTypes := by
  unfold startSession
  split
  · rfl
  · rfl

theorem isLogin_startSession (c : Conn) (timerOk : Bool) :
    (c.startSession timerOk).2.session.isLogin = c.session.isLogin := by
  unfold startSession
  split
  · rfl
  · rfl

theorem lookup_doLoginReq (c : Conn) (tbl : Option Json) (res : Resources) (key : String) :
    (c.doLoginReq tbl res).2.shared.clientTypes.lookup key =
      c.entryUnder res key (registers c.session.isLogin kLoginReq tbl) := by
  unfold doLoginReq registers
  by_cases hlogin : c.session.isLogin = true
  · rw [if_pos hlogin, if_neg (by simp [hlogin])]
    rfl
  · rw [if_neg hlogin, if_pos ⟨rfl, by simpa using hlogin⟩]
    cases requestedType tbl with
    | none => rfl
    | some type =>
        cases type with
        | none =>
            dsimp only
            rw [clientTypes_startSession]
            rfl
        | some type =>
            dsimp only
            rw [clientTypes_startSession, lookup_setType]
            rfl

theorem lookup_proc (c : Conn) (typ : Int) (body : List UInt8) (res : Resources) (key : String) :
    (c.proc cjson typ body res).2.shared.clientTypes.lookup key =
      c.entryUnder res key (registers c.session.isLogin typ (cjson.decode body)) := by
  rw [proc_snd]
  by_cases hlogin : typ = kLoginReq
  · rw [if_pos hlogin, lookup_doLoginReq, hlogin]
  · have hnone : registers c.session.isLogin typ (cjson.decode body) = none :=
      if_neg fun h => hlogin h.1
    rw [if_neg hlogin, hnone]
    by_cases hheart : typ = kHeartReq
    · rw [if_pos hheart, doHeartReq_snd]
      rfl
    · rw [if_neg hheart]
      rfl

theorem isLogin_doLoginReq (c : Conn) (tbl : Option Json) (res : Resources) :
    (c.doLoginReq tbl res).2.session.isLogin = true := by
  unfold doLoginReq
  by_cases hlogin : c.session.isLogin = true
  · rw [if_pos hlogin]
    exact hlogin
  · rw [if_neg hlogin]
    cases requestedType tbl with
    | none => rfl
    | some type =>
        cases type with
        | none => exact isLogin_startSession _ res.timerOk
        | some type =>
            refine (isLogin_startSession _ res.timerOk).trans ?_
            unfold setType
            dsimp only
            split
            · rfl
            · rfl

theorem isLogin_proc (c : Conn) (typ : Int) (body : List UInt8) (res : Resources) :
    (c.proc cjson typ body res).2.session.isLogin = (c.session.isLogin || typ = kLoginReq) := by
  rw [proc_snd]
  by_cases hlogin : typ = kLoginReq
  · rw [if_pos hlogin, isLogin_doLoginReq]
    simp [hlogin]
  · rw [if_neg hlogin]
    by_cases hheart : typ = kHeartReq
    · rw [if_pos hheart, doHeartReq_snd]
      simp [hlogin]
    · rw [if_neg hheart]
      simp [hlogin]

def entryAfter (c : Conn) (key : String) : Event → Option Json
  | .recv (.err _) _ =>
      if key = c.session.sessionid then none else c.shared.clientTypes.lookup key
  | .recv (.packet _ typ body _) res =>
      c.entryUnder res key (registers c.session.isLogin typ (cjson.decode body))
  | .timer _ =>
      if NO_HEART_BEAT_THRESHOLD = c.session.noHeartTime ∧ key = c.session.sessionid then none
      else c.shared.clientTypes.lookup key
  | _ => c.shared.clientTypes.lookup key

theorem lookup_sessionBrokenClean (c : Conn) (key : String) :
    c.sessionBrokenClean.shared.clientTypes.lookup key =
      if key = c.session.sessionid then none else c.shared.clientTypes.lookup key := by
  by_cases hkey : key = c.session.sessionid
  · rw [if_pos hkey, hkey]
    exact AList.lookup_erase _ _
  · rw [if_neg hkey]
    exact AList.lookup_erase_ne hkey

theorem lookup_mainProc (c : Conn) (received : RecvResult) (res : Resources) (key : String) :
    (c.mainProc cjson received res).shared.clientTypes.lookup key =
      c.entryAfter cjson key (.recv received res) := by
  cases received with
  | raised => rfl
  | err error =>
      have hclean := lookup_sessionBrokenClean c key
      unfold mainProc
      dsimp only
      split
      · exact hclean
      · exact hclean
  | packet syncBytes typ body binarydata =>
      have hproc := lookup_proc cjson { c with session.syncBytes := syncBytes } typ body res key
      have hturn := packetTurn_mainProc cjson c syncBytes typ body binarydata res
      generalize c.mainProc cjson _ res = c' at hturn ⊢
      cases hturn with
      | raised _ => exact hproc
      | silent _ =>
          rw [loop_eq]
          exact hproc
      | reply typ' body' _ =>
          rw [loop_eq]
          exact hproc

theorem lookup_dealHeartBeat (c : Conn) (timerOk : Bool) (key : String) :
    (c.dealHeartBeat timerOk).shared.clientTypes.lookup key =
      c.entryAfter cjson key (.timer timerOk) := by
  unfold dealHeartBeat entryAfter
  by_cases hsilent : NO_HEART_BEAT_THRESHOLD = c.session.noHeartTime
  · simp only [hsilent, if_true, true_and]
    exact lookup_sessionBrokenClean c key
  · simp only [hsilent, if_false, false_and]
    unfold countTick
    split
    all_goals
      split
      all_goals rfl

theorem clientTypes_notifyMsgProc (c : Conn) (thread : Nat) :
    (c.notifyMsgProc thread).shared.clientTypes = c.shared.clientTypes := by
  unfold notifyMsgProc
  split
  · rfl
  · split
    · rfl
    · rfl

theorem clientTypes_sendMessage (c : Conn) (ok : Bool) :
    (c.sendMessage ok).shared.clientTypes = c.shared.clientTypes := by
  unfold sendMessage
  split
  · rfl
  · split
    · rfl
    · cases ok with
      | true => rfl
      | false => rfl

/-- Under every key a turn leaves what `entryAfter` says. -/
theorem lookup_step {c c' : Conn} {e : Event} (hstep : step cjson c e = some c') (key : String) :
    c'.shared.clientTypes.lookup key = c.entryAfter cjson key e := by
  cases turn_of_step cjson hstep with
  | recv received res _ =>
      exact lookup_mainProc cjson c received res key
  | joined _ _ =>
      rfl
  | timer timerOk _ =>
      exact lookup_dealHeartBeat cjson { c with timers := c.timers - 1 } timerOk key
  | notify thread _ =>
      exact congrArg (AList.lookup key) (clientTypes_notifyMsgProc c thread)
  | send ok _ =>
      exact congrArg (AList.lookup key) (clientTypes_sendMessage c ok)

/-! ## Samples -/

def loginBody (type : String) : List UInt8 :=
  sampleText ("\x7b\"data\":\x7b\"type\":" ++ type ++ "\x7d\x7d")

def sampleCjson : Cjson where
  decode body :=
    if body = loginBody "\"a\"" then some (.obj [("data", .obj [("type", .str "a")])])
    else if body = loginBody "\"b\"" then some (.obj [("data", .obj [("type", .str "b")])])
    else if body = loginBody "[]" then some (.obj [("data", .obj [("type", .arr [])])])
    else none
  encode _ := some (sampleText "\x7b\"msg_type\":\"login_rsp\",\"data\":\x7b\"code\":1000\x7d\x7d")

def sampleShared : Shared := ⟨∅, fun _ => [], fun _ => []⟩

def loginEvent (type : String) : Event :=
  .recv (.packet 0x01010101 kLoginReq (loginBody type) none) ⟨true, []⟩

def sampleAck : List UInt8 :=
  packetMessage 0x01010101 kLoginRsp
    (sampleText "\x7b\"msg_type\":\"login_rsp\",\"data\":\x7b\"code\":1000\x7d\x7d")

end Conn

end CloudEdgePush.Server
