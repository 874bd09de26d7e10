import CloudEdgePush.Server.Turns

/-!
# The heartbeat monitor

`_deal_heart_beat` counts silent intervals and ends the session at the tick that finds the
count at its threshold.  That tick looks at the count before it looks at the flag, and the
count is kept when the session ends: an expiry is justified exactly if no heartbeat came in the
last interval and it is the first of the connection.
-/

namespace CloudEdgePush.Server

open CloudEdgePush.Lib CloudEdgePush.Lib.Transition
open CloudEdgePush.Server.MessagePacket CloudEdgePush.Server.MessageDef

/-! ## What the log says -/

/-- Whether a login has started a monitor that has not expired, and what happened since. -/
structure Watch where
  running : Bool
  since : List Entry

def Entry.isExpired : Entry → Bool
  | .expired => true
  | _ => false

instance (log : List Entry) : Decidable (Entry.expired ∈ log) :=
  decidable_of_iff (log.any Entry.isExpired = true) (by
    rw [List.any_eq_true]
    constructor
    · rintro ⟨e, hmem, hexpired⟩
      cases e with
      | expired => exact hmem
      | _ => cases hexpired
    · intro hmem
      exact ⟨.expired, hmem, rfl⟩)

def Watch.next (w : Watch) : Entry → Watch
  | .loginReq type => if w.running then ⟨true, w.since ++ [.loginReq type]⟩ else ⟨true, []⟩
  | .expired => ⟨false, []⟩
  | e => ⟨w.running, w.since ++ [e]⟩

def watch (log : List Entry) : Watch := log.foldl Watch.next ⟨false, []⟩

/-- With the interval that ends now there are at least `NO_HEART_BEAT_THRESHOLD` consecutive
intervals without a heartbeat; an interval starts at the login or at a tick. -/
def Overdue (since : List Entry) : Prop :=
  ∃ earlier silent, since = earlier ++ silent ∧ (earlier = [] ∨ ∃ front, earlier = front ++ [.tick]) ∧
    Entry.heartReq ∉ silent ∧
    Conn.NO_HEART_BEAT_THRESHOLD ≤ silent.countP Entry.isTick + 1

def ExpiriesJustified (log : List Entry) : Prop :=
  ∀ before after, log = before ++ .expired :: after → Overdue (watch before).since

theorem expiriesJustified_next (log : List Entry) (e : Entry) :
    ExpiriesJustified (log ++ [e]) ↔
      ExpiriesJustified log ∧ (e = .expired → Overdue (watch log).since) :=
  History.forall_split_concat

theorem watch_append (log : List Entry) (e : Entry) :
    watch (log ++ [e]) = (watch log).next e := by
  rw [watch, List.foldl_append]
  rfl

theorem not_overdue_of_heart {front last : List Entry} (hlast : last.countP Entry.isTick = 0)
    (hheart : Entry.heartReq ∈ last) : ¬ Overdue (front ++ last) := by
  rintro ⟨earlier, silent, hsplit, -, hsilent, hcount⟩
  rcases List.append_eq_append_iff.mp hsplit with ⟨middle, rfl, hrest⟩ | ⟨middle, rfl, rfl⟩
  · -- the stretch lies inside the last interval
    rw [hrest, List.countP_append] at hlast
    rw [Conn.NO_HEART_BEAT_THRESHOLD] at hcount
    omega
  · exact hsilent (List.mem_append_right _ hheart)

theorem not_overdue_of_no_tick {since : List Entry} (hcount : since.countP Entry.isTick = 0) :
    ¬ Overdue since := by
  rintro ⟨earlier, silent, rfl, -, -, hle⟩
  rw [List.countP_append] at hcount
  rw [Conn.NO_HEART_BEAT_THRESHOLD] at hle
  omega

/-- What the monitor knows about the time since the login: silent intervals up to the last tick,
and whether a heartbeat came after it.  A flag from before the login counts until the first
tick. -/
def Tracks (since : List Entry) (m : Monitor) : Prop :=
  ∃ earlier silent last, since = earlier ++ silent ++ last ∧
    (earlier = [] ∨ ∃ front, earlier = front ++ [.tick]) ∧ Entry.heartReq ∉ silent ∧
    silent.countP Entry.isTick = m.noHeartTime ∧ last.countP Entry.isTick = 0 ∧
    (m.heartBeatFlag = false → Entry.heartReq ∉ last) ∧
    (m.heartBeatFlag = true → Entry.heartReq ∈ last ∨ m.noHeartTime = 0)

theorem tracks_start {m : Monitor} (hzero : m.noHeartTime = 0) : Tracks [] m :=
  ⟨[], [], [], rfl, .inl rfl, List.not_mem_nil, hzero.symm, rfl, fun _ => List.not_mem_nil,
    fun _ => .inr hzero⟩

theorem Tracks.overdue_iff {since : List Entry} {m : Monitor} (h : Tracks since m)
    (hfull : Conn.NO_HEART_BEAT_THRESHOLD = m.noHeartTime) :
    Overdue since ↔ m.heartBeatFlag = false := by
  obtain ⟨earlier, silent, last, rfl, hboundary, hsilent, hcount, hlast, hquiet, hbeat⟩ := h
  cases hflag : m.heartBeatFlag with
  | false =>
      refine iff_of_true ⟨earlier, silent ++ last, List.append_assoc .., hboundary, ?_, ?_⟩ rfl
      · rw [List.mem_append, not_or]
        exact ⟨hsilent, hquiet hflag⟩
      · rw [List.countP_append, hcount, hfull]
        omega
  | true =>
      refine iff_of_false (not_overdue_of_heart hlast ?_) nofun
      refine (hbeat hflag).resolve_right ?_
      rw [← hfull]
      decide

theorem Tracks.heart {since : List Entry} {m : Monitor} (h : Tracks since m) :
    Tracks (since ++ [.heartReq]) (m.next .heartReq) := by
  obtain ⟨earlier, silent, last, rfl, hboundary, hsilent, hcount, hlast, -, -⟩ := h
  refine ⟨earlier, silent, last ++ [.heartReq], by simp, hboundary, hsilent, hcount, ?_, nofun, ?_⟩
  · simpa [Entry.isTick] using hlast
  · intro _
    exact .inl (by simp)

theorem Tracks.login {since : List Entry} {m : Monitor} (h : Tracks since m) (type : Option Json) :
    Tracks (since ++ [.loginReq type]) m := by
  obtain ⟨earlier, silent, last, rfl, hboundary, hsilent, hcount, hlast, hquiet, hbeat⟩ := h
  refine ⟨earlier, silent, last ++ [.loginReq type], by simp, hboundary, hsilent, hcount, ?_, ?_, ?_⟩
  · simpa [Entry.isTick] using hlast
  · simpa using hquiet
  · simpa using hbeat

theorem Tracks.tick {since : List Entry} {m : Monitor} (h : Tracks since m) :
    Tracks (since ++ [.tick]) (m.next .tick) := by
  obtain ⟨earlier, silent, last, rfl, hboundary, hsilent, hcount, hlast, hquiet, -⟩ := h
  cases hflag : m.heartBeatFlag with
  | true =>
      have hnext : m.next .tick = ⟨0, false⟩ := if_pos hflag
      rw [hnext]
      exact ⟨earlier ++ silent ++ last ++ [.tick], [], [], by simp, .inr ⟨_, rfl⟩,
        List.not_mem_nil, rfl, rfl, fun _ => List.not_mem_nil, nofun⟩
  | false =>
      have hnext : m.next .tick = ⟨m.noHeartTime + 1, false⟩ := if_neg (by simp [hflag])
      rw [hnext]
      refine ⟨earlier, silent ++ last ++ [.tick], [], by simp, hboundary, ?_, ?_, rfl,
        fun _ => List.not_mem_nil, nofun⟩
      · simpa [hsilent] using hquiet hflag
      · simp [Entry.isTick, hcount, hlast]

namespace Conn

/-! ## What a step is to the monitor -/

def expires (c : Conn) : Event → Bool
  | .timer _ => NO_HEART_BEAT_THRESHOLD = c.session.noHeartTime
  | _ => false

inductive MonitorStep (c : Conn) (e : Event) (c' : Conn) : Prop
  | quiet (hlog : c'.log = c.log) (hmonitor : c'.monitor = c.monitor)
      (htimers : c'.timers = c.timers) (hgoes : c.expires e = false)
  | login (type : Option Json) (hlog : c'.log = c.log ++ [.loginReq type])
      (hmonitor : c'.monitor = c.monitor) (hgoes : c.expires e = false)
  | heart (hlog : c'.log = c.log ++ [.heartReq]) (hmonitor : c'.monitor = c.monitor.next .heartReq)
      (htimers : c'.timers = c.timers) (hgoes : c.expires e = false)
  | tick (hpos : 0 < c.timers) (hlog : c'.log = c.log ++ [.tick])
      (hmonitor : c'.monitor = c.monitor.next .tick) (hgoes : c.expires e = false)
      (hcount : NO_HEART_BEAT_THRESHOLD ≠ c.session.noHeartTime)
  | expired (hpos : 0 < c.timers) (hlog : c'.log = c.log ++ [.expired])
      (hmonitor : c'.monitor = c.monitor) (hends : c.expires e = true)

variable (cjson : Cjson)

theorem timers_proc (c : Conn) {typ : Int} (htyp : typ ≠ kLoginReq) (body : List UInt8)
    (res : Resources) : (c.proc cjson typ body res).2.timers = c.timers := by
  rw [proc_snd, if_neg htyp]
  by_cases hheart : typ = kHeartReq
  · rw [if_pos hheart, doHeartReq_snd]
  · rw [if_neg hheart]

theorem monitorStep_proc (c : Conn) (typ : Int) (body : List UInt8) (res : Resources)
    {e : Event} (hgoes : c.expires e = false) :
    MonitorStep c e (c.proc cjson typ body res).2 := by
  have hlogged := logged_proc cjson c typ body res
  unfold messageEntries at hlogged
  by_cases hlogin : typ = kLoginReq
  · rw [if_pos hlogin] at hlogged
    exact .login _ hlogged.log hlogged.monitor hgoes
  · have htimers := timers_proc cjson c hlogin body res
    rw [if_neg hlogin] at hlogged
    split at hlogged
    · exact .heart hlogged.log hlogged.monitor htimers hgoes
    · exact .quiet (hlogged.log.trans (List.append_nil _)) hlogged.monitor htimers hgoes

theorem MonitorStep.congr {c c' c'' : Conn} {e : Event} (h : MonitorStep c e c')
    (hlog : c''.log = c'.log) (hmonitor : c''.monitor = c'.monitor)
    (htimers : c''.timers = c'.timers) : MonitorStep c e c'' := by
  cases h with
  | quiet h₁ h₂ h₃ h₄ => exact .quiet (hlog.trans h₁) (hmonitor.trans h₂) (htimers.trans h₃) h₄
  | login type h₁ h₂ h₃ => exact .login type (hlog.trans h₁) (hmonitor.trans h₂) h₃
  | heart h₁ h₂ h₃ h₄ => exact .heart (hlog.trans h₁) (hmonitor.trans h₂) (htimers.trans h₃) h₄
  | tick hpos h₁ h₂ h₃ h₄ => exact .tick hpos (hlog.trans h₁) (hmonitor.trans h₂) h₃ h₄
  | expired hpos h₁ h₂ h₃ => exact .expired hpos (hlog.trans h₁) (hmonitor.trans h₂) h₃

theorem monitorStep_mainProc (c : Conn) (received : RecvResult) (res : Resources) :
    MonitorStep c (.recv received res) (c.mainProc cjson received res) := by
  cases received with
  | raised => exact .quiet rfl rfl rfl rfl
  | err error =>
      unfold mainProc
      dsimp only
      split
      · exact .quiet rfl rfl rfl rfl
      · exact .quiet rfl rfl rfl rfl
  | packet syncBytes typ body binarydata =>
      let d : Conn := { c with session.syncBytes := syncBytes }
      have hproc : MonitorStep c (.recv (.packet syncBytes typ body binarydata) res)
          (d.proc cjson typ body res).2 := by
        cases monitorStep_proc cjson d typ body res
          (e := .recv (.packet syncBytes typ body binarydata) res) rfl with
        | quiet h₁ h₂ h₃ h₄ => exact .quiet h₁ h₂ h₃ h₄
        | login type h₁ h₂ h₃ => exact .login type h₁ h₂ h₃
        | heart h₁ h₂ h₃ h₄ => exact .heart h₁ h₂ h₃ h₄
        | tick hpos h₁ h₂ h₃ h₄ => exact .tick hpos h₁ h₂ h₃ h₄
        | expired hpos h₁ h₂ h₃ => exact .expired hpos h₁ h₂ h₃
      have hturn := packetTurn_mainProc cjson c syncBytes typ body binarydata res
      generalize c.mainProc cjson _ res = c' at hturn ⊢
      cases hturn with
      | raised _ => exact hproc.congr rfl rfl rfl
      | silent _ =>
          rw [loop_eq]
          exact hproc.congr rfl rfl rfl
      | reply typ' body' _ =>
          rw [loop_eq]
          exact hproc.congr rfl rfl rfl

theorem monitorStep_timer {c : Conn} (hpos : c.timers ≠ 0) (timerOk : Bool) :
    MonitorStep c (.timer timerOk) ({ c with timers := c.timers - 1 }.dealHeartBeat timerOk) := by
  have hlogged := logged_dealHeartBeat { c with timers := c.timers - 1 } timerOk
  unfold monitorEntry at hlogged
  by_cases hends : NO_HEART_BEAT_THRESHOLD = c.session.noHeartTime
  · rw [if_pos hends] at hlogged
    exact .expired (Nat.pos_of_ne_zero hpos) hlogged.log hlogged.monitor (decide_eq_true hends)
  · rw [if_neg hends] at hlogged
    exact .tick (Nat.pos_of_ne_zero hpos) hlogged.log hlogged.monitor (decide_eq_false hends) hends

theorem monitorStep_step {c c' : Conn} {e : Event} (hstep : step cjson c e = some c') :
    MonitorStep c e c' := by
  cases turn_of_step cjson hstep with
  | recv received res _ =>
      exact monitorStep_mainProc cjson c received res
  | joined _ _ =>
      exact .quiet rfl rfl rfl rfl
  | timer timerOk hpos =>
      exact monitorStep_timer hpos timerOk
  | notify thread _ =>
      unfold notifyMsgProc
      split
      · exact .quiet rfl rfl rfl rfl
      · split
        · exact .quiet rfl rfl rfl rfl
        · exact .quiet rfl rfl rfl rfl
  | send ok _ =>
      unfold sendMessage
      split
      · exact .quiet rfl rfl rfl rfl
      · split
        · exact .quiet rfl rfl rfl rfl
        · cases ok with
          | true => exact .quiet rfl rfl rfl rfl
          | false => exact .quiet rfl rfl rfl rfl

/-! ## Runs -/

/-- An expiring tick of the run is the first one, and finds no heartbeat in its interval. -/
def ExpiresSilent (c : Conn) (e : Event) : Prop :=
  c.expires e = true → c.session.heartBeatFlag = false ∧ Entry.expired ∉ c.log

instance (c : Conn) (e : Event) : Decidable (c.ExpiresSilent e) :=
  inferInstanceAs (Decidable (_ → _ ∧ ¬ _))

/-- Before the first expiry the monitor tracks the log, and no timer runs before a login.  After
it the count stays at the threshold, so there are no ticks but expiring ones. -/
structure MonitorInv (c : Conn) : Prop where
  first : Entry.expired ∉ c.log →
    ((watch c.log).running = true → Tracks (watch c.log).since c.monitor) ∧
      ((watch c.log).running = false → c.timers = 0 ∧ c.session.noHeartTime = 0)
  later : Entry.expired ∈ c.log →
    NO_HEART_BEAT_THRESHOLD = c.session.noHeartTime ∧
      (watch c.log).since.countP Entry.isTick = 0

theorem threshold_of_expires {c : Conn} {e : Event} (h : c.expires e = true) :
    NO_HEART_BEAT_THRESHOLD = c.session.noHeartTime := by
  cases e with
  | timer timerOk => exact of_decide_eq_true h
  | _ => cases h

theorem monitorInv_connect (sessionid : String) (shared : Shared) :
    MonitorInv (connect sessionid shared) where
  first _ := ⟨nofun, fun _ => ⟨rfl, rfl⟩⟩
  later hmem := by cases hmem

theorem MonitorInv.login {c c' : Conn} (hc : MonitorInv c) {type : Option Json}
    (hlog : c'.log = c.log ++ [.loginReq type]) (hmonitor : c'.monitor = c.monitor) :
    MonitorInv c' := by
  have hcount : c'.session.noHeartTime = c.session.noHeartTime :=
    congrArg Monitor.noHeartTime hmonitor
  have hmem : Entry.expired ∈ c'.log ↔ Entry.expired ∈ c.log := by simp [hlog]
  have hwatch : watch c'.log = if (watch c.log).running
      then ⟨true, (watch c.log).since ++ [.loginReq type]⟩ else ⟨true, []⟩ := by
    rw [hlog, watch_append]
    rfl
  constructor
  · intro hnot
    obtain ⟨htracks, hidle⟩ := hc.first (hmem.not.mp hnot)
    rw [hwatch, hmonitor]
    cases hrunning : (watch c.log).running with
    | true => exact ⟨fun _ => (htracks hrunning).login type, nofun⟩
    | false => exact ⟨fun _ => tracks_start (hidle hrunning).2, nofun⟩
  · intro hexpired
    obtain ⟨hfull, hticks⟩ := hc.later (hmem.mp hexpired)
    refine ⟨hfull.trans hcount.symm, ?_⟩
    rw [hwatch]
    split
    · simpa [Entry.isTick] using hticks
    · rfl

theorem MonitorInv.heart {c c' : Conn} (hc : MonitorInv c)
    (hlog : c'.log = c.log ++ [.heartReq]) (hmonitor : c'.monitor = c.monitor.next .heartReq)
    (htimers : c'.timers = c.timers) : MonitorInv c' := by
  have hcount : c'.session.noHeartTime = c.session.noHeartTime :=
    congrArg Monitor.noHeartTime hmonitor
  have hmem : Entry.expired ∈ c'.log ↔ Entry.expired ∈ c.log := by simp [hlog]
  have hwatch : watch c'.log = ⟨(watch c.log).running, (watch c.log).since ++ [.heartReq]⟩ := by
    rw [hlog, watch_append]
    rfl
  constructor
  · intro hnot
    obtain ⟨htracks, hidle⟩ := hc.first (hmem.not.mp hnot)
    rw [hwatch, hmonitor, htimers, hcount]
    exact ⟨fun hrunning => (htracks hrunning).heart, hidle⟩
  · intro hexpired
    obtain ⟨hfull, hticks⟩ := hc.later (hmem.mp hexpired)
    refine ⟨hfull.trans hcount.symm, ?_⟩
    rw [hwatch]
    simpa [Entry.isTick] using hticks

theorem MonitorInv.tick {c c' : Conn} (hc : MonitorInv c) (hpos : 0 < c.timers)
    (hcount : NO_HEART_BEAT_THRESHOLD ≠ c.session.noHeartTime)
    (hlog : c'.log = c.log ++ [.tick]) (hmonitor : c'.monitor = c.monitor.next .tick) :
    MonitorInv c' := by
  have hmem : Entry.expired ∈ c'.log ↔ Entry.expired ∈ c.log := by simp [hlog]
  have hwatch : watch c'.log = ⟨(watch c.log).running, (watch c.log).since ++ [.tick]⟩ := by
    rw [hlog, watch_append]
    rfl
  constructor
  · intro hnot
    obtain ⟨htracks, hidle⟩ := hc.first (hmem.not.mp hnot)
    rw [hwatch, hmonitor]
    exact ⟨fun hrunning => (htracks hrunning).tick,
      fun hrunning => absurd (hidle hrunning).1 hpos.ne'⟩
  · intro hexpired
    exact absurd (hc.later (hmem.mp hexpired)).1 hcount

theorem step_monitorInv (c : Conn) (e : Event) (c' : Conn) (hc : MonitorInv c)
    (hstep : step cjson c e = some c') : MonitorInv c' := by
  cases monitorStep_step cjson hstep with
  | quiet hlog hmonitor htimers _ =>
      have hcount : c'.session.noHeartTime = c.session.noHeartTime :=
        congrArg Monitor.noHeartTime hmonitor
      obtain ⟨hfirst, hlater⟩ := hc
      constructor
      · rw [hlog, hmonitor, htimers, hcount]
        exact hfirst
      · rw [hlog, hcount]
        exact hlater
  | login type hlog hmonitor _ => exact hc.login hlog hmonitor
  | heart hlog hmonitor htimers _ => exact hc.heart hlog hmonitor htimers
  | tick hpos hlog hmonitor _ hcount => exact hc.tick hpos hcount hlog hmonitor
  | expired hpos hlog hmonitor hends =>
      have hcount : c'.session.noHeartTime = c.session.noHeartTime :=
        congrArg Monitor.noHeartTime hmonitor
      constructor
      · intro hnot
        rw [hlog] at hnot
        simp at hnot
      · intro _
        refine ⟨(threshold_of_expires hends).trans hcount.symm, ?_⟩
        rw [hlog, watch_append]
        rfl

/-- An expiring tick finds the session overdue exactly if it is the first one and no heartbeat
came since the last tick. -/
theorem overdue_at_expiry {c : Conn} {e : Event} (hc : MonitorInv c) (hpos : 0 < c.timers)
    (hends : c.expires e = true) :
    Overdue (watch c.log).since ↔
      c.session.heartBeatFlag = false ∧ Entry.expired ∉ c.log := by
  by_cases hmem : Entry.expired ∈ c.log
  · refine iff_of_false (not_overdue_of_no_tick (hc.later hmem).2) ?_
    exact fun h => h.2 hmem
  · obtain ⟨htracks, hidle⟩ := hc.first hmem
    rw [and_iff_left hmem]
    cases hrunning : (watch c.log).running with
    | true => exact (htracks hrunning).overdue_iff (threshold_of_expires hends)
    | false => exact absurd (hidle hrunning).1 hpos.ne'

theorem step_expiriesJustified_iff (c : Conn) (e : Event) (c' : Conn) (hc : MonitorInv c)
    (hstep : step cjson c e = some c') :
    ExpiriesJustified c'.log ↔ ExpiriesJustified c.log ∧ c.ExpiresSilent e := by
  have hno (hgoes : c.expires e = false) : c.ExpiresSilent e := by
    intro hends
    rw [hgoes] at hends
    cases hends
  cases monitorStep_step cjson hstep with
  | quiet hlog _ _ hgoes => rw [hlog, and_iff_left (hno hgoes)]
  | login type hlog _ hgoes =>
      rw [hlog, expiriesJustified_next, and_iff_left nofun, and_iff_left (hno hgoes)]
  | heart hlog _ _ hgoes =>
      rw [hlog, expiriesJustified_next, and_iff_left nofun, and_iff_left (hno hgoes)]
  | tick hpos hlog _ hgoes _ =>
      rw [hlog, expiriesJustified_next, and_iff_left nofun, and_iff_left (hno hgoes)]
  | expired hpos hlog _ hends =>
      rw [hlog, expiriesJustified_next, overdue_at_expiry hc hpos hends]
      simp only [ExpiresSilent, hends, forall_const]

/-- In every run of a session, with login and heartbeat requests and ticks in any order: each
time the monitor ends the session, at least six intervals in a row up to this tick had no
heartbeat since the login, if and only if every expiring tick is the first one of the connection
and no heartbeat came since the tick before. -/
theorem expiriesJustified_iff {sessionid : String} {shared : Shared} {events : List Event}
    {c : Conn} (hrun : run (step cjson) (connect sessionid shared) events = some c) :
    ExpiriesJustified c.log ↔
      AllSteps (step cjson) ExpiresSilent (connect sessionid shared) events := by
  have hnone : ExpiriesJustified (connect sessionid shared).log := by
    intro before after hsplit
    have hlength := congrArg List.length hsplit
    simp [connect] at hlength
  rw [run_iff_allSteps (step_monitorInv cjson) (step_expiriesJustified_iff cjson)
    (monitorInv_connect sessionid shared) hrun]
  exact and_iff_right hnone

/-! ## A heartbeat that comes too late -/

def heartEvent : Event := .recv (.packet 0x01010101 kHeartReq (loginBody "\"a\"") none) ⟨true, []⟩

def loginThenTicks (n : Nat) : List Event := loginEvent "\"a\"" :: List.replicate n (.timer true)

theorem expiry_of_silence :
    ∃ c, run (step sampleCjson) (connect "client_127_0_0_1_9000" sampleShared) (loginThenTicks 7) =
        some c ∧ ExpiriesJustified c.log := by
  have hsome : (run (step sampleCjson) (connect "client_127_0_0_1_9000" sampleShared)
      (loginThenTicks 7)).isSome := by
    decide +kernel
  obtain ⟨c, hrun⟩ := Option.isSome_iff_exists.mp hsome
  refine ⟨c, hrun, (expiriesJustified_iff sampleCjson hrun).mpr ?_⟩
  decide +kernel

/-- Six silent ticks, a heartbeat, and the session is ended at the next tick. -/
theorem expiry_ignores_heartbeat : ¬ ∀ (cjson : Cjson) (sessionid : String) (shared : Shared)
    (events : List Event) (c : Conn),
    run (step cjson) (connect sessionid shared) events = some c → ExpiriesJustified c.log := by
  intro h
  let events := loginThenTicks 6 ++ [heartEvent]
  have hbad : ∃ m ∈ run (step sampleCjson) (connect "client_127_0_0_1_9000" sampleShared) events,
      m.session.heartBeatFlag = true ∧ m.expires (.timer true) = true ∧
        (step sampleCjson m (.timer true)).isSome := by
    decide +kernel
  obtain ⟨m, hrun, hflag, hends, hsome⟩ := hbad
  obtain ⟨c, hstep⟩ := Option.isSome_iff_exists.mp hsome
  have hjustified := h sampleCjson _ _ _ c ((run_concat hrun (.timer true)).trans hstep)
  have hinv := run_invariant (step_monitorInv sampleCjson) (monitorInv_connect _ _) hrun
  have hsilent := ((step_expiriesJustified_iff sampleCjson m _ c hinv hstep).mp hjustified).2 hends
  rw [hsilent.1] at hflag
  cases hflag

end Conn

end CloudEdgePush.Server
