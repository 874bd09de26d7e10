import CloudEdgePush.Server.Turns

/-!
# The end of a session

`_main_proc` ends in three ways.  When `recv_packet` reports an error the session is cleaned
up first.  When a handler raises, or when the sender has set `session.exit`, it is not: the
session then leaves its registration behind, unless it never had one.
-/

namespace CloudEdgePush.Server.Conn

open CloudEdgePush.Lib.Transition
open CloudEdgePush.Server.MessagePacket CloudEdgePush.Server.MessageDef

def Clean (c : Conn) : Prop :=
  c.session.isLogin = false ∧ c.shared.clientTypes.lookup c.session.sessionid = none

instance (c : Conn) : Decidable c.Clean :=
  decidable_of_iff (c.session.isLogin = false ∧
    (c.shared.clientTypes.lookup c.session.sessionid).isNone = true)
    (and_congr_right' Option.isNone_iff_eq_none)

/-- An event at which `_main_proc` ends without a cleanup finds nothing to clean up, before and
after its message is handled. -/
def EndsClean (cjson : Cjson) (c : Conn) : Event → Prop
  | .recv .raised _ => c.Clean
  | .recv (.packet _ typ body _) res =>
      c.session.exit = true ∨ raises c.session.isLogin typ (cjson.decode body) res.timerOk →
        c.Clean ∧ typ ≠ kLoginReq
  | _ => True

instance (cjson : Cjson) (c : Conn) : ∀ e, Decidable (EndsClean cjson c e)
  | .recv .raised _ => inferInstanceAs (Decidable c.Clean)
  | .recv (.packet _ _ _ _) _ => inferInstanceAs (Decidable (_ → _ ∧ _))
  | .recv (.err _) _ => isTrue trivial
  | .joined => isTrue trivial
  | .timer _ => isTrue trivial
  | .notify _ => isTrue trivial
  | .send _ => isTrue trivial

theorem clean_sessionBrokenClean (c : Conn) : c.sessionBrokenClean.Clean :=
  ⟨rfl, AList.lookup_erase _ _⟩

variable (cjson : Cjson)

theorem clean_proc (c : Conn) (typ : Int) (body : List UInt8) (res : Resources) :
    (c.proc cjson typ body res).2.Clean ↔ c.Clean ∧ typ ≠ kLoginReq := by
  have hlogin := isLogin_proc cjson c typ body res
  have hentry := lookup_proc cjson c typ body res c.session.sessionid
  rw [Clean, (logged_proc cjson c typ body res).sessionid, hlogin, hentry]
  by_cases htyp : typ = kLoginReq
  · simp [htyp]
  · have hnone : registers c.session.isLogin typ (cjson.decode body) = none :=
      if_neg fun h => htyp h.1
    simp [htyp, hnone, Clean, entryUnder]

theorem clean_dealHeartBeat {c : Conn} (hc : c.Clean) (timerOk : Bool) :
    (c.dealHeartBeat timerOk).Clean := by
  unfold dealHeartBeat
  split
  · exact clean_sessionBrokenClean c
  · unfold countTick
    split
    all_goals
      split
      all_goals exact hc

theorem clean_notifyMsgProc {c : Conn} (hc : c.Clean) (thread : Nat) :
    (c.notifyMsgProc thread).Clean := by
  unfold notifyMsgProc
  split
  · exact hc
  · split
    · exact hc
    · exact hc

theorem clean_sendMessage {c : Conn} (hc : c.Clean) (ok : Bool) : (c.sendMessage ok).Clean := by
  unfold sendMessage
  split
  · exact hc
  · split
    · exact hc
    · cases ok with
      | true => exact hc
      | false => exact hc

/-- A packet ends `_main_proc` when a handler raises or the session's exit flag is set. -/
theorem mainProc_packet {c : Conn} (hreading : c.main = .reading) (syncBytes typ : Int)
    (body : List UInt8) (binarydata : Option (List UInt8)) (res : Resources) :
    ((c.mainProc cjson (.packet syncBytes typ body binarydata) res).Clean ↔
        c.Clean ∧ typ ≠ kLoginReq) ∧
      ((c.mainProc cjson (.packet syncBytes typ body binarydata) res).main =
        if c.session.exit ∨ raises c.session.isLogin typ (cjson.decode body) res.timerOk then .ended
        else .reading) := by
  let d : Conn := { c with session.syncBytes := syncBytes }
  have hclean : (d.proc cjson typ body res).2.Clean ↔ c.Clean ∧ typ ≠ kLoginReq :=
    clean_proc cjson d typ body res
  have hraised : (d.proc cjson typ body res).1 = .raised ↔
      raises c.session.isLogin typ (cjson.decode body) res.timerOk = true :=
    proc_raised_iff cjson d typ body res
  have hmain : (d.proc cjson typ body res).2.main = .reading :=
    (logged_proc cjson d typ body res).main.trans hreading
  have hexit : (d.proc cjson typ body res).2.session.exit = c.session.exit :=
    (Kept.proc cjson d typ body res).exit
  have hloop {reply : Option (Int × List UInt8)}
      (h : (d.proc cjson typ body res).1 = .returned reply) (d' : Conn)
      (hmain' : d'.main = .reading) (hexit' : d'.session.exit = c.session.exit) :
      d'.loop.main = if c.session.exit = true ∨
        raises c.session.isLogin typ (cjson.decode body) res.timerOk then .ended else .reading := by
    have hno : ¬ raises c.session.isLogin typ (cjson.decode body) res.timerOk := by
      rw [← hraised, h]
      nofun
    simp only [loop_eq, hmain', hexit', or_iff_left hno]
  have hturn := packetTurn_mainProc cjson c syncBytes typ body binarydata res
  generalize c.mainProc cjson _ res = c' at hturn ⊢
  cases hturn with
  | raised h =>
      rw [if_pos (.inr (hraised.mp h))]
      exact ⟨hclean, rfl⟩
  | silent h =>
      refine ⟨?_, hloop h _ hmain hexit⟩
      rw [loop_eq]
      exact hclean
  | reply typ' body' h =>
      refine ⟨?_, hloop h _ hmain hexit⟩
      rw [loop_eq]
      exact hclean

/-! ## Runs -/

/-- From the cleanup on there is nothing left of the session. -/
def CleanUnlessReading (c : Conn) : Prop := c.main ≠ .reading → c.Clean

theorem step_cleanUnlessReading {c c' : Conn} {e : Event} (hc : c.CleanUnlessReading)
    (he : EndsClean cjson c e) (hstep : step cjson c e = some c') : c'.CleanUnlessReading := by
  intro hnot
  cases turn_of_step cjson hstep with
  | recv received res hreading =>
      cases received with
      | raised => exact he
      | err error =>
          unfold mainProc
          dsimp only
          split
          · exact clean_sessionBrokenClean c
          · exact clean_sessionBrokenClean c
      | packet syncBytes typ body binarydata =>
          obtain ⟨hclean, hmain⟩ := mainProc_packet cjson hreading syncBytes typ body binarydata res
          rw [hmain] at hnot
          refine hclean.mpr (he ?_)
          by_contra hgoes
          rw [if_neg hgoes] at hnot
          exact hnot rfl
  | joined hwaiting _ =>
      exact hc (by rw [hwaiting]; decide)
  | timer timerOk _ =>
      have hmain := (logged_dealHeartBeat { c with timers := c.timers - 1 } timerOk).main
      exact clean_dealHeartBeat (c := { c with timers := c.timers - 1 }) (hc (hmain ▸ hnot)) timerOk
  | notify thread _ =>
      have hmain := (logged_notifyMsgProc c thread).main
      exact clean_notifyMsgProc (hc (hmain ▸ hnot)) thread
  | send ok _ =>
      have hmain := (logged_sendMessage c ok).main
      exact clean_sendMessage (hc (hmain ▸ hnot)) ok

theorem endsClean_of_step {c c' : Conn} {e : Event} (hstep : step cjson c e = some c')
    (hc' : c'.main = .ended → c'.Clean) : EndsClean cjson c e := by
  cases turn_of_step cjson hstep with
  | recv received res hreading =>
      cases received with
      | raised => exact hc' rfl
      | err error => trivial
      | packet syncBytes typ body binarydata =>
          intro hends
          obtain ⟨hclean, hmain⟩ := mainProc_packet cjson hreading syncBytes typ body binarydata res
          rw [if_pos hends] at hmain
          exact hclean.mp (hc' hmain)
  | _ => trivial

/-- In every run of a session, with any bytes received, any order of its threads and any
failures around them: whenever `_main_proc` has ended the session is logged out and not
registered, if and only if each time it ends other than by an error of `recv_packet`, the
session is not logged in, not registered, and not about to log in. -/
theorem ended_clean_iff {sessionid : String} {shared : Shared} {events : List Event} {c : Conn}
    (hrun : run (step cjson) (connect sessionid shared) events = some c) :
    (∀ before m, before <+: events → run (step cjson) (connect sessionid shared) before = some m →
        m.main = .ended → m.Clean) ↔
      AllSteps (step cjson) (EndsClean cjson) (connect sessionid shared) events := by
  apply prefixes_iff_of_guarded (fun _ _ _ hc he hstep => step_cleanUnlessReading cjson hc he hstep)
    _ (fun _ _ _ _ hstep => endsClean_of_step cjson hstep) _ hrun
  · intro c hc hended
    exact hc (by rw [hended]; decide)
  · intro hnot
    exact absurd rfl hnot

def badHeartEvent : Event := .recv (.packet 0x01010101 kHeartReq [0x7b] none) ⟨true, []⟩

def loginThenClose : List Event := [loginEvent "\"a\"", .recv (.err "closed") ⟨true, []⟩]

theorem ended_clean_of_error :
    ∃ c, run (step sampleCjson) (connect "client_127_0_0_1_9000" sampleShared) loginThenClose =
        some c ∧
      ∀ before m, before <+: loginThenClose →
        run (step sampleCjson) (connect "client_127_0_0_1_9000" sampleShared) before = some m →
        m.main = .ended → m.Clean := by
  have hsome : (run (step sampleCjson) (connect "client_127_0_0_1_9000" sampleShared)
      loginThenClose).isSome := by
    decide +kernel
  obtain ⟨c, hrun⟩ := Option.isSome_iff_exists.mp hsome
  refine ⟨c, hrun, (ended_clean_iff sampleCjson hrun).mpr ?_⟩
  decide +kernel

/-- After a login the handler of a heartbeat request raises. -/
theorem ended_not_clean : ¬ ∀ (cjson : Cjson) (sessionid : String) (shared : Shared)
    (events : List Event) (c : Conn),
    run (step cjson) (connect sessionid shared) events = some c → c.main = .ended → c.Clean := by
  intro h
  have hbad : ∃ c ∈ run (step sampleCjson) (connect "client_127_0_0_1_9000" sampleShared)
      [loginEvent "\"a\"", badHeartEvent], c.main = .ended ∧ c.session.isLogin = true := by
    decide +kernel
  obtain ⟨c, hrun, hended, hlogin⟩ := hbad
  have hclean := h sampleCjson _ _ _ c hrun hended
  rw [hclean.1] at hlogin
  cases hlogin

end CloudEdgePush.Server.Conn
