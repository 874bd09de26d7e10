import CloudEdgePush.Client.Queue

/-!
# Clients that are configured not to reconnect

`handleConnect`, the read handlers and `handleWrite` look at `isReconnect` before they start a
reconnect; `checkHeartbeat` does not.  A client that is configured not to reconnect therefore
stays with its first connect exactly as long as it never misses the last heartbeat.
-/

namespace CloudEdgePush.Client.IoLoop

open CloudEdgePush.Lib.Transition TcpClientImpl

variable {σ : Type}

def ConnectsOnce (s : IoLoop σ) : Prop := s.link.issued = 1 ∧ s.link.reconnectWaits = []

instance (s : IoLoop σ) : Decidable (ConnectsOnce s) :=
  inferInstanceAs (Decidable (s.link.issued = 1 ∧ s.link.reconnectWaits = []))

/-- No handler that runs is a `checkHeartbeat` of a running session which finds that three
heartbeats were not answered. -/
def NoHeartbeatLoss (s : IoLoop σ) : Event → Prop
  | .env _ => True
  | .run => s.queue.head? = some .checkHeartbeat → s.state.client.stopped = false →
      s.state.client.missesHeartbeat = false

instance (s : IoLoop σ) (e : Event) : Decidable (NoHeartbeatLoss s e) :=
  match e with
  | .env _ => isTrue trivial
  | .run => inferInstanceAs (Decidable (_ → _ → _))

structure StaysWithFirst (s : IoLoop σ) : Prop where
  isReconnect : s.link.clientConfig.isReconnect = false
  once : ConnectsOnce s
  reconnectFlag : s.link.reconnectFlag = 0
  queue : Ready.doReconnect ∉ s.queue

theorem posted_ne_doReconnect (posted : List Posted) : Ready.doReconnect ∉ posted.map .posted := by
  simp

theorem StaysWithFirst.ofProgress {bus : Bus σ} {s s' : IoLoop σ} {e : Occurrence}
    (h : StaysWithFirst s) (hstep : step bus s (.env e) = some s') : StaysWithFirst s' := by
  obtain ⟨ready, hprogress, hqueue, -⟩ := progress_of_step hstep
  obtain ⟨hconfig, ⟨hissued, hwaits⟩, hflag, hnot⟩ := h
  have hkeeps (l : Link) (hl : s'.link = l) (hconfig : l.clientConfig.isReconnect = false)
      (honce : l.issued = 1 ∧ l.reconnectWaits = []) (hflag : l.reconnectFlag = 0)
      (hready : Ready.doReconnect ∉ ready) : StaysWithFirst s' := by
    subst hl
    refine ⟨hconfig, honce, hflag, ?_⟩
    rw [hqueue]
    simp [hnot, hready]
  generalize hl : s'.link = l at hprogress
  cases hprogress with
  | reconnectDue i aborted hwait hdue =>
      have hnone : s.state.client.io.reconnectWaits = [] := hwaits
      rw [hnone] at hwait
      cases hwait
  | write msg msgs => exact hkeeps _ hl hconfig ⟨hissued, hwaits⟩ hflag (posted_ne_doReconnect _)
  | close => exact hkeeps _ hl hconfig ⟨hissued, hwaits⟩ hflag (posted_ne_doReconnect _)
  | _ => exact hkeeps _ hl hconfig ⟨hissued, hwaits⟩ hflag (by simp)

theorem StaysWithFirst.ofOutcome {bus : Bus σ} {s s' : IoLoop σ} (h : StaysWithFirst s)
    (hstep : step bus s .run = some s') (hbeats : NoHeartbeatLoss s .run) : StaysWithFirst s' := by
  obtain ⟨r, rest, posted, hturn, houtcome⟩ := outcome_of_step hstep
  have hqueue := hturn.queue
  obtain ⟨hconfig, ⟨hissued, hwaits⟩, hflag, hnot⟩ := h
  rw [hqueue, List.mem_cons, not_or] at hnot
  have hkeeps (l : Link) (hl : s'.link = l) (hconfig : l.clientConfig.isReconnect = false)
      (honce : l.issued = 1 ∧ l.reconnectWaits = []) (hflag : l.reconnectFlag = 0) :
      StaysWithFirst s' := by
    subst hl
    refine ⟨hconfig, honce, hflag, ?_⟩
    exact fun hmem => hnot.2 (hturn.mem_of_not_posted hmem nofun)
  generalize hl : s'.link = l at houtcome
  cases houtcome with
  | connectFailed ec msgs hfailed =>
      have hl := hl.trans (Link.lost_of_not_isReconnect hconfig)
      exact hkeeps _ hl hconfig ⟨hissued, hwaits⟩ hflag
  | lost r reads msgs hrunning hlost =>
      have hl := hl.trans (Link.lost_of_not_isReconnect hconfig)
      exact hkeeps _ hl hconfig ⟨hissued, hwaits⟩ hflag
  | heartbeatLost hrunning hmissed =>
      have hanswered := hbeats (by rw [hqueue]; rfl) hrunning
      rw [hanswered] at hmissed
      cases hmissed
  | reconnect => exact absurd rfl hnot.1
  | connected op msgs hopen hop => exact hkeeps _ hl hconfig ⟨hissued, hwaits⟩ rfl
  | written op hrunning =>
      obtain ⟨_, _, _, hwritten⟩ := Link.onlyWrites_written s.state.client.link
      exact hkeeps _ (hl.trans hwritten) hconfig ⟨hissued, hwaits⟩ hflag
  | accepted msg hrunning =>
      obtain ⟨_, _, _, haccept⟩ := Link.onlyWrites_accept s.state.client.link msg
      exact hkeeps _ (hl.trans haccept) hconfig ⟨hissued, hwaits⟩ hflag
  | _ => exact hkeeps _ hl hconfig ⟨hissued, hwaits⟩ hflag

theorem StaysWithFirst.noHeartbeatLoss {bus : Bus σ} {s s' : IoLoop σ} {e : Event}
    (h : StaysWithFirst s) (hstep : step bus s e = some s') (honce : ConnectsOnce s') :
    NoHeartbeatLoss s e := by
  cases e with
  | env e => trivial
  | run =>
      intro hhead hrunning
      obtain ⟨r, rest, posted, hturn, houtcome⟩ := outcome_of_step hstep
      obtain rfl : r = .checkHeartbeat := by simpa [hturn.queue] using hhead
      obtain ⟨-, hwaits⟩ := honce
      generalize s'.link = l at houtcome hwaits
      cases houtcome with
      | ignored r hneeds hstopped =>
          rw [hstopped] at hrunning
          cases hrunning
      | lost r reads msgs _ hlost => cases hlost
      | heartbeatLost _ hmissed =>
          have harms := Link.startReconnect_of_arms
            (l := { s.state.client.link with closed := true }) (.inl h.reconnectFlag)
          rw [harms] at hwaits
          exact absurd hwaits (List.append_ne_nil_of_right_ne_nil _ (List.cons_ne_nil _ _))
      | beat msgs _ hmissed => exact hmissed

/-- In every run of a client that is configured not to reconnect, the first connect is the only
one and the reconnect timer is never armed, if and only if no `checkHeartbeat` on a running
session finds three heartbeats unanswered. -/
theorem connectsOnce_iff (bus : Bus σ) {cfg : ClientConfig} (hcfg : cfg.isReconnect = false)
    {sub : σ} {events : List Event} {s : IoLoop σ}
    (hrun : run (step bus) (start cfg sub) events = some s) :
    (∀ before m, before <+: events → run (step bus) (start cfg sub) before = some m →
        ConnectsOnce m) ↔
      AllSteps (step bus) NoHeartbeatLoss (start cfg sub) events := by
  have hinit : StaysWithFirst (start cfg sub) := ⟨hcfg, ⟨rfl, rfl⟩, rfl, List.not_mem_nil⟩
  have hkeep : ∀ s e s', StaysWithFirst s → NoHeartbeatLoss s e → step bus s e = some s' →
      StaysWithFirst s' := by
    intro s e s' h hbeats hstep
    cases e with
    | env e => exact h.ofProgress hstep
    | run => exact h.ofOutcome hstep hbeats
  exact prefixes_iff_of_guarded hkeep (fun s h => h.once)
    (fun s e s' h hstep honce => h.noHeartbeatLoss hstep honce) hinit hrun

/-! ## A server that does not answer -/

def oneSession : ClientConfig := { sampleConfig with isReconnect := false }

theorem connectsOnce_of_threePeriods :
    ∃ s, run (step idleBus) (start oneSession ()) threePeriods = some s ∧ ConnectsOnce s := by
  have hsteps : (run (step idleBus) (start oneSession ()) threePeriods).isSome ∧
      AllSteps (step idleBus) NoHeartbeatLoss (start oneSession ()) threePeriods := by
    decide +kernel
  obtain ⟨s, hrun⟩ := Option.isSome_iff_exists.mp hsteps.1
  exact ⟨s, hrun, (connectsOnce_iff idleBus rfl hrun).mpr hsteps.2 _ s (List.prefix_refl _) hrun⟩

/-- The fourth unanswered heartbeat arms the reconnect timer. -/
theorem reconnects_though_configured_not_to : ¬ ∀ (cfg : ClientConfig) (events : List Event)
    (s : IoLoop Unit), cfg.isReconnect = false →
      run (step idleBus) (start cfg ()) events = some s → ConnectsOnce s := by
  intro h
  have hbad : ∃ s ∈ run (step idleBus) (start oneSession ()) (threePeriods ++ heartbeatPeriod),
      ¬ConnectsOnce s := by
    decide +kernel
  obtain ⟨s, hrun, honce⟩ := hbad
  exact honce (h oneSession _ s rfl hrun)

end CloudEdgePush.Client.IoLoop
