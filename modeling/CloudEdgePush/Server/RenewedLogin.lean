import CloudEdgePush.Server.Heartbeat

/-!
# A login after an expiry

The count of silent intervals is set to zero when the connection is made, and at a tick that
finds a heartbeat; not at a login.  After an expiry it stays at the threshold, so the first tick
that a renewed login gets ends the session again.
-/

namespace CloudEdgePush.Server

open CloudEdgePush.Lib CloudEdgePush.Lib.Transition

/-- Every expiry that is not the first one of the log found the session overdue: enough silent
intervals since the login that renewed it. -/
def GraceKept (log : List Entry) : Prop :=
  ∀ before after, log = before ++ .expired :: after → Entry.expired ∈ before →
    Overdue (watch before).since

theorem graceKept_next (log : List Entry) (e : Entry) :
    GraceKept (log ++ [e]) ↔
      GraceKept log ∧ (e = .expired → Entry.expired ∈ log → Overdue (watch log).since) :=
  History.forall_split_concat (P := fun before => Entry.expired ∈ before →
    Overdue (watch before).since)

namespace Conn

def TicksBeforeExpiry (c : Conn) : Event → Prop
  | .timer _ => Entry.expired ∉ c.log
  | _ => True

instance (c : Conn) : ∀ e, Decidable (c.TicksBeforeExpiry e)
  | .recv _ _ => isTrue trivial
  | .joined => isTrue trivial
  | .timer _ => inferInstanceAs (Decidable (¬ _))
  | .notify _ => isTrue trivial
  | .send _ => isTrue trivial

/-- Behind an expiry every tick expires. -/
theorem ticksBeforeExpiry_of_goes {c : Conn} (hc : MonitorInv c) {e : Event}
    (hgoes : c.expires e = false) : c.TicksBeforeExpiry e := by
  cases e with
  | timer timerOk =>
      intro hmem
      exact of_decide_eq_false hgoes (hc.later hmem).1
  | _ => trivial

variable (cjson : Cjson)

theorem step_graceKept_iff (c : Conn) (e : Event) (c' : Conn) (hc : MonitorInv c)
    (hstep : step cjson c e = some c') :
    GraceKept c'.log ↔ GraceKept c.log ∧ c.TicksBeforeExpiry e := by
  cases monitorStep_step cjson hstep with
  | quiet hlog _ _ hgoes =>
      rw [hlog, and_iff_left (ticksBeforeExpiry_of_goes hc hgoes)]
  | login type hlog _ hgoes =>
      rw [hlog, graceKept_next, and_iff_left nofun,
        and_iff_left (ticksBeforeExpiry_of_goes hc hgoes)]
  | heart hlog _ _ hgoes =>
      rw [hlog, graceKept_next, and_iff_left nofun,
        and_iff_left (ticksBeforeExpiry_of_goes hc hgoes)]
  | tick _ hlog _ hgoes _ =>
      rw [hlog, graceKept_next, and_iff_left nofun,
        and_iff_left (ticksBeforeExpiry_of_goes hc hgoes)]
  | expired _ hlog _ hends =>
      rw [hlog, graceKept_next]
      refine and_congr_right fun _ => ?_
      cases e with
      | timer timerOk =>
          constructor
          · intro hgrace hmem
            exact not_overdue_of_no_tick (hc.later hmem).2 (hgrace rfl hmem)
          · intro hfirst _ hmem
            exact absurd hmem hfirst
      | _ => cases hends

/-- In every run of a session: each time the monitor ends the session again, at least six
intervals in a row had no heartbeat since the renewed login, if and only if no tick comes after
the first expiry. -/
theorem graceKept_iff {sessionid : String} {shared : Shared} {events : List Event} {c : Conn}
    (hrun : run (step cjson) (connect sessionid shared) events = some c) :
    GraceKept c.log ↔
      AllSteps (step cjson) TicksBeforeExpiry (connect sessionid shared) events := by
  have hnone : GraceKept (connect sessionid shared).log := by
    intro before after hsplit
    have hlength := congrArg List.length hsplit
    simp [connect] at hlength
  rw [run_iff_allSteps (step_monitorInv cjson) (step_graceKept_iff cjson)
    (monitorInv_connect sessionid shared) hrun]
  exact and_iff_right hnone

theorem grace_of_renewed_login :
    ∃ c, run (step sampleCjson) (connect "client_127_0_0_1_9000" sampleShared)
        (loginThenTicks 7 ++ [loginEvent "\"a\""]) = some c ∧ GraceKept c.log := by
  have hsome : (run (step sampleCjson) (connect "client_127_0_0_1_9000" sampleShared)
      (loginThenTicks 7 ++ [loginEvent "\"a\""])).isSome := by
    decide +kernel
  obtain ⟨c, hrun⟩ := Option.isSome_iff_exists.mp hsome
  refine ⟨c, hrun, (graceKept_iff sampleCjson hrun).mpr ?_⟩
  decide +kernel

/-- Expired after seven silent ticks, logged in again, and expired at the next tick. -/
theorem renewed_login_expires : ¬ ∀ (cjson : Cjson) (sessionid : String) (shared : Shared)
    (events : List Event) (c : Conn),
    run (step cjson) (connect sessionid shared) events = some c → GraceKept c.log := by
  intro h
  let events := loginThenTicks 7 ++ [loginEvent "\"a\""]
  have hbad : ∃ m ∈ run (step sampleCjson) (connect "client_127_0_0_1_9000" sampleShared) events,
      m.main = .reading ∧ m.session.isLogin = true ∧ Entry.expired ∈ m.log ∧
        (step sampleCjson m (.timer true)).isSome := by
    decide +kernel
  obtain ⟨m, hrun, -, -, hmem, hsome⟩ := hbad
  obtain ⟨c, hstep⟩ := Option.isSome_iff_exists.mp hsome
  have hkept := h sampleCjson _ _ _ c ((run_concat hrun (.timer true)).trans hstep)
  have hinv := run_invariant (step_monitorInv sampleCjson) (monitorInv_connect _ _) hrun
  exact ((step_graceKept_iff sampleCjson m _ c hinv hstep).mp hkept).2 hmem

end Conn

end CloudEdgePush.Server
