import CloudEdgePush.Server.Connections
import CloudEdgePush.Server.SessionEnd

/-!
# A session id that is used again

The cleanup of a session goes by its id.  A timer that outlives its connection therefore
finds, when it expires, what a later session of the same address registered.
-/

namespace CloudEdgePush.Server

open CloudEdgePush.Lib.Transition
open CloudEdgePush.Server.MessagePacket CloudEdgePush.Server.MessageDef

namespace Conn

def entry (c : Conn) : Option Json := c.shared.clientTypes.lookup c.session.sessionid

def Vacant (c : Conn) : Prop := c.entry = none ∧ c.notifyQueue = []

/-- The turns that leave the entry and the notify queue of the session id alone. -/
def Harmless (cjson : Cjson) (c : Conn) : Event → Prop
  | .recv (.err _) _ => c.Vacant
  | .recv (.packet _ typ body _) res =>
      ∀ type, registers c.session.isLogin typ (cjson.decode body) = some type →
        c.entry = if c.session.sessionid ∈ res.evicted then none else some type
  | .timer _ => NO_HEART_BEAT_THRESHOLD = c.session.noHeartTime → c.Vacant
  | .notify _ => c.session.isLogin = true → c.notifyQueue = []
  | _ => True

/-- From `c` to `c'` the entry and the notify queue are the same. -/
def Undisturbed (c c' : Conn) : Prop :=
  c'.entry = c.entry ∧ c'.notifyQueue = c.notifyQueue

theorem undisturbed_cleanup_iff {c c' : Conn} (hentry : c'.entry = none)
    (hqueue : c'.notifyQueue = []) : Undisturbed c c' ↔ c.Vacant := by
  rw [Undisturbed, hentry, hqueue, Vacant, eq_comm, @eq_comm _ []]

theorem vacant_sessionBrokenClean (c : Conn) : c.sessionBrokenClean.Vacant :=
  ⟨AList.lookup_erase _ _, Function.update_self _ _ _⟩

variable (cjson : Cjson)

theorem entry_proc (c : Conn) (typ : Int) (body : List UInt8) (res : Resources) :
    (c.proc cjson typ body res).2.entry = c.entry ↔
      ∀ type, registers c.session.isLogin typ (cjson.decode body) = some type →
        c.entry = if c.session.sessionid ∈ res.evicted then none else some type := by
  rw [entry, (logged_proc cjson c typ body res).sessionid, lookup_proc]
  cases registers c.session.isLogin typ (cjson.decode body) with
  | none => exact iff_of_true rfl nofun
  | some type => simp [entryUnder, eq_comm]

/-! ## One turn -/

theorem undisturbed_packet (c : Conn) (syncBytes typ : Int) (body : List UInt8)
    (binarydata : Option (List UInt8)) (res : Resources) :
    Undisturbed c (c.mainProc cjson (.packet syncBytes typ body binarydata) res) ↔
      Harmless cjson c (.recv (.packet syncBytes typ body binarydata) res) := by
  let d : Conn := { c with session.syncBytes := syncBytes }
  have hentry : (d.proc cjson typ body res).2.entry = c.entry ↔
      Harmless cjson c (.recv (.packet syncBytes typ body binarydata) res) :=
    entry_proc cjson d typ body res
  have hqueue : (d.proc cjson typ body res).2.notifyQueue = c.notifyQueue := by
    rw [notifyQueue, (Kept.proc cjson d typ body res).notifyMsgQueue,
      (logged_proc cjson d typ body res).sessionid]
    rfl
  have hproc : Undisturbed c (d.proc cjson typ body res).2 ↔
      Harmless cjson c (.recv (.packet syncBytes typ body binarydata) res) := by
    rw [Undisturbed, and_iff_left hqueue, hentry]
  have hturn := packetTurn_mainProc cjson c syncBytes typ body binarydata res
  rw [← hproc]
  generalize c.mainProc cjson _ res = c' at hturn ⊢
  cases hturn with
  | raised _ => rfl
  | silent _ =>
      rw [loop_eq]
      rfl
  | reply typ' body' _ =>
      rw [loop_eq]
      rfl

theorem undisturbed_dealHeartBeat (c : Conn) (timerOk : Bool) :
    Undisturbed c (c.dealHeartBeat timerOk) ↔ Harmless cjson c (.timer timerOk) := by
  unfold Harmless dealHeartBeat
  by_cases hsilent : NO_HEART_BEAT_THRESHOLD = c.session.noHeartTime
  · have hvacant := vacant_sessionBrokenClean c
    simp only [hsilent, if_true, forall_const]
    exact undisturbed_cleanup_iff hvacant.1 hvacant.2
  · rw [if_neg hsilent]
    refine iff_of_true ?_ fun h => absurd h hsilent
    unfold countTick
    split
    all_goals
      split
      all_goals exact ⟨rfl, rfl⟩

theorem undisturbed_notifyMsgProc (c : Conn) (thread : Nat) :
    Undisturbed c (c.notifyMsgProc thread) ↔ Harmless cjson c (.notify thread) := by
  unfold Harmless notifyMsgProc
  by_cases hlogin : c.session.isLogin = true
  · simp only [hlogin, Bool.not_true, Bool.false_eq_true, if_false, forall_const]
    split
    · rename_i hqueue
      exact iff_of_true ⟨rfl, rfl⟩ hqueue
    · rename_i message rest hqueue
      have hafter : (Conn.notifyQueue { c with
          shared.notifyMsgQueue :=
            Function.update c.shared.notifyMsgQueue c.session.sessionid rest }) = rest :=
        Function.update_self _ _ _
      have hbefore : c.notifyQueue = message :: rest := hqueue
      refine iff_of_false ?_ (by rw [hbefore]; exact List.cons_ne_nil _ _)
      rintro ⟨-, hsame⟩
      exact List.cons_ne_self message rest (hbefore.symm.trans (hsame.symm.trans hafter))
  · simp only [hlogin, Bool.not_false, if_true]
    exact iff_of_true ⟨rfl, rfl⟩ nofun

theorem undisturbed_sendMessage (c : Conn) (ok : Bool) : Undisturbed c (c.sendMessage ok) := by
  unfold sendMessage
  split
  · exact ⟨rfl, rfl⟩
  · split
    · exact ⟨rfl, rfl⟩
    · cases ok with
      | true => exact ⟨rfl, rfl⟩
      | false => exact ⟨rfl, rfl⟩

theorem undisturbed_step_iff {c c' : Conn} {e : Event} (hstep : step cjson c e = some c') :
    Undisturbed c c' ↔ Harmless cjson c e := by
  cases turn_of_step cjson hstep with
  | recv received res _ =>
      cases received with
      | raised => exact iff_of_true ⟨rfl, rfl⟩ trivial
      | err error =>
          have hvacant := vacant_sessionBrokenClean c
          unfold mainProc
          dsimp only
          split
          · exact undisturbed_cleanup_iff hvacant.1 hvacant.2
          · exact undisturbed_cleanup_iff hvacant.1 hvacant.2
      | packet syncBytes typ body binarydata =>
          exact undisturbed_packet cjson c syncBytes typ body binarydata res
  | joined _ _ =>
      exact iff_of_true ⟨rfl, rfl⟩ trivial
  | timer timerOk _ =>
      exact undisturbed_dealHeartBeat cjson { c with timers := c.timers - 1 } timerOk
  | notify thread _ =>
      exact undisturbed_notifyMsgProc cjson c thread
  | send ok _ =>
      exact iff_of_true (undisturbed_sendMessage c ok) trivial

end Conn

namespace StreamServer

def ReusedBy (s : StreamServer) (i : Nat) (c later : Conn) : Prop :=
  (∃ j, i < j ∧ s.conns[j]? = some later) ∧
    later.session.sessionid = c.session.sessionid ∧ later.session.isLogin = true

/-- No turn of an earlier session changes the entry or the notify queue of a later one that is
logged in under the same id. -/
def LeavesLaterAlone (cjson : Cjson) (s : StreamServer) : Event → Prop
  | .turn i e => ∀ c later, s.conns[i]? = some c → s.ReusedBy i c later →
      ∀ s', step cjson s (.turn i e) = some s' →
        s'.shared.clientTypes.lookup later.session.sessionid =
            s.shared.clientTypes.lookup later.session.sessionid ∧
          s'.shared.notifyMsgQueue later.session.sessionid =
            s.shared.notifyMsgQueue later.session.sessionid
  | _ => True

def HarmlessWhenReused (cjson : Cjson) (s : StreamServer) : Event → Prop
  | .turn i e => ∀ c later, s.conns[i]? = some c → s.ReusedBy i c later →
      Conn.Harmless cjson { c with shared := s.shared } e
  | _ => True

variable (cjson : Cjson)

theorem leavesLaterAlone_iff {s s' : StreamServer} {e : Event} (hstep : step cjson s e = some s') :
    s.LeavesLaterAlone cjson e ↔ s.HarmlessWhenReused cjson e := by
  cases e with
  | connect ip port => rfl
  | publish sessionid msg => rfl
  | turn i e =>
      refine forall₂_congr fun c later => forall₂_congr fun hc hreused => ?_
      obtain ⟨c', hturn, hshared, -⟩ := step_turn cjson hc hstep
      have hid : c'.session.sessionid = c.session.sessionid :=
        (Conn.sessionid_step cjson hturn).trans rfl
      have hentry : c'.entry = s'.shared.clientTypes.lookup c.session.sessionid := by
        rw [hshared]
        exact congrArg (fun id => c'.shared.clientTypes.lookup id) hid
      have hqueue : c'.notifyQueue = s'.shared.notifyMsgQueue c.session.sessionid := by
        rw [hshared]
        exact congrArg c'.shared.notifyMsgQueue hid
      rw [← Conn.undisturbed_step_iff cjson hturn, Conn.Undisturbed, hentry, hqueue, hreused.2.1]
      simp only [hstep, Option.some.injEq, forall_eq']
      rfl

/-- In every run of the server, with connections that come and go and session ids that are used
again: no turn of an earlier session changes the entry or the notify queue of a later one that
is logged in under its id, if and only if all turns of sessions whose id is used again are
harmless. -/
theorem leavesLaterAlone_run_iff {shared : Shared} {events : List Event} {s : StreamServer}
    (hrun : run (step cjson) (start shared) events = some s) :
    AllSteps (step cjson) (LeavesLaterAlone cjson) (start shared) events ↔
      AllSteps (step cjson) (HarmlessWhenReused cjson) (start shared) events :=
  allSteps_congr_of_run (fun _ _ _ hstep => leavesLaterAlone_iff cjson hstep) hrun

/-! ## A timer that expires late -/

def firstSession : List Event :=
  [.connect "10.0.0.7" "40000", .turn 0 (Conn.loginEvent "\"a\""),
    .turn 0 (.recv (.err "closed") ⟨true, []⟩), .turn 0 (.notify 0), .turn 0 .joined]

def secondSession : List Event :=
  [.connect "10.0.0.7" "40000", .turn 1 (Conn.loginEvent "\"b\"")]

def reconnected : List Event :=
  [.connect "10.0.0.7" "40000", .connect "10.0.0.7" "40000",
    .turn 1 (Conn.loginEvent "\"b\""), .turn 0 (.send true)]

theorem leavesLaterAlone_of_send :
    ∃ s, run (step Conn.sampleCjson) (start Conn.sampleShared) reconnected = some s ∧
      AllSteps (step Conn.sampleCjson) (LeavesLaterAlone Conn.sampleCjson)
        (start Conn.sampleShared) reconnected := by
  have hsome : (run (step Conn.sampleCjson) (start Conn.sampleShared) reconnected).isSome := by
    decide +kernel
  obtain ⟨s, hrun⟩ := Option.isSome_iff_exists.mp hsome
  refine ⟨s, hrun, (leavesLaterAlone_run_iff Conn.sampleCjson hrun).mpr ?_⟩
  refine ⟨trivial, ?_⟩
  rintro _ ⟨rfl⟩
  refine ⟨trivial, ?_⟩
  rintro _ ⟨rfl⟩
  refine ⟨?_, fun s' _ => ⟨fun _ _ _ _ => trivial, fun _ _ => trivial⟩⟩
  rintro c later - ⟨⟨j, hj, hlater⟩, -⟩
  match j, hj, hlater with
  | 0, hj, _ => cases hj
  | 1, hj, _ => exact absurd hj (Nat.lt_irrefl 1)
  | _ + 2, _, hlater => cases hlater

/-- The heartbeat timer of the first session expires, and unregisters the second one. -/
theorem expiry_hits_later_session : ¬ ∀ (cjson : Cjson) (shared : Shared) (events : List Event)
    (s s' : StreamServer) (i : Nat) (e : Conn.Event) (c later : Conn),
    run (step cjson) (start shared) events = some s → s.conns[i]? = some c →
    s.ReusedBy i c later → step cjson s (.turn i e) = some s' →
    s'.shared.clientTypes.lookup later.session.sessionid =
      s.shared.clientTypes.lookup later.session.sessionid := by
  intro h
  let events := firstSession ++ secondSession ++ List.replicate 6 (.turn 0 (.timer true))
  have hbad : ∃ s ∈ run (step Conn.sampleCjson) (start Conn.sampleShared) events,
      ∃ c ∈ s.conns[0]?, ∃ later ∈ s.conns[1]?,
        (later.session.sessionid = c.session.sessionid ∧ later.session.isLogin = true) ∧
        ∃ s' ∈ step Conn.sampleCjson s (.turn 0 (.timer true)),
          (s.shared.clientTypes.lookup later.session.sessionid).isSome ∧
          (s'.shared.clientTypes.lookup later.session.sessionid).isNone := by
    decide +kernel
  obtain ⟨s, hrun, c, hc, later, hlater, hsame, s', hstep, hbefore, hafter⟩ := hbad
  have hkept := h _ _ events s s' 0 _ c later hrun hc ⟨⟨1, by decide, hlater⟩, hsame⟩ hstep
  rw [← hkept, Option.isNone_iff_eq_none.mp hafter] at hbefore
  cases hbefore

end StreamServer

end CloudEdgePush.Server
